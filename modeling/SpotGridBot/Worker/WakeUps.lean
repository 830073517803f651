import SpotGridBot.Worker.Draining
import SpotGridBot.Utils.TimerThreads

namespace SpotGridBot.Worker
open Runs Waiting Utils

def Stage.awaitsItem : Stage → Bool
  | .idleWait | .idle => true
  | _ => false

def Stage.awaitsUnPause : Stage → Bool
  | .pauseWait | .paused => true
  | _ => false

namespace Stopper

def notifies : Stopper → Bool
  | .sequencesDone _ => true
  | _ => false

def notifiesPaused : Stopper → Bool
  | .notified _ => true
  | _ => false

def joins : Stopper → Bool
  | .joining _ _ => true
  | _ => false

def flagSet : Stopper → Bool
  | .absent | .returned => false
  | _ => true

end Stopper

namespace BackgroundWorker

structure NoneAsleep (s : BackgroundWorker) : Prop where
  stop : s.stopper.joins = true → s.shutdown = true →
    ∀ w, s.workers w ≠ .idle ∧ s.workers w ≠ .paused
  unPause : s.resumed = true → ∀ w, s.workers w ≠ .paused

/-- No thread is between its test and its wait when it is notified, and none that found
`m_shutdown` unset before the notifications finds `m_pause` set after them. -/
def Prompt (s : BackgroundWorker) : Event → Prop
  | .stopStep =>
      (s.stopper.notifies = true → ∀ w < s.threads, s.workers w ≠ .idleWait) ∧
        (s.stopper.notifiesPaused = true → ∀ w < s.threads, s.workers w ≠ .pauseWait)
  | .notifyPause =>
      s.unpausing ≠ 0 → s.pause = false → ∀ w < s.threads, s.workers w ≠ .pauseWait
  | .worker w => s.stopper.joins = true → s.workers w = .pauseRead → s.pause = false
  | _ => True

instance (s : BackgroundWorker) : (event : Event) → Decidable (s.Prompt event)
  | .stopStep => inferInstanceAs (Decidable
      ((_ → ∀ w < s.threads, s.workers w ≠ .idleWait) ∧
        (_ → ∀ w < s.threads, s.workers w ≠ .pauseWait)))
  | .notifyPause => inferInstanceAs (Decidable
      (_ → _ → ∀ w < s.threads, s.workers w ≠ .pauseWait))
  | .worker w => inferInstanceAs (Decidable (_ → s.workers w = .pauseRead → s.pause = false))
  | .testShutdown | .enqueueTagged _ _ | .clearQueue | .onFlush _ | .setPause | .clearPause
  | .spuriousWake _ | .stop _ _ => .isTrue trivial

variable {s s' : BackgroundWorker} {w : ℕ} {event : Event}

structure Roused (s : BackgroundWorker) : Prop extends s.Locking where
  flagged : s.stopper.flagSet = true → s.shutdown = true
  notified : s.stopper.joins = true ∨ s.stopper.notifiesPaused = true →
    Nobody s.workers fun stage => stage.awaitsItem = true
  joining : s.stopper.joins = true → Nobody s.workers fun stage => stage.awaitsUnPause = true
  resumed : s.resumed = true →
    s.pause = false ∧ Nobody s.workers fun stage => stage.awaitsUnPause = true

theorem WorkerStep.nobody_awaitsItem (step : WorkerStep s w s') (stopping : s.shutdown = true)
    (nobody : Nobody s.workers fun stage => stage.awaitsItem = true) :
    Nobody s'.workers fun stage => stage.awaitsItem = true := by
  cases step with
  | stays => exact nobody
  | moves move =>
      refine nobody.update w ?_
      have here := nobody w
      generalize s.workers w = stage at move here
      cases move with
      | await runs =>
          rw [stopping] at runs
          contradiction
      | block => exact here
      | _ => exact Bool.noConfusion
  | takes scans found => exact nobody.update w Bool.noConfusion
  | finishes executes free => exact nobody.update w Bool.noConfusion

theorem WorkerStep.nobody_awaitsUnPause (step : WorkerStep s w s')
    (resumes : s.workers w = .pauseRead → s.pause = false)
    (nobody : Nobody s.workers fun stage => stage.awaitsUnPause = true) :
    Nobody s'.workers fun stage => stage.awaitsUnPause = true := by
  cases step with
  | stays => exact nobody
  | moves move =>
      refine nobody.update w ?_
      have here := nobody w
      generalize s.workers w = stage at move here resumes
      cases move with
      | awaitPause pauses =>
          rw [resumes rfl] at pauses
          contradiction
      | blockPause => exact here
      | _ => exact Bool.noConfusion
  | takes scans found => exact nobody.update w Bool.noConfusion
  | finishes executes free => exact nobody.update w Bool.noConfusion

theorem Waking.nobody {p : Stage → Prop} (waking : Waking s s') (idleWoken : ¬ p .idleWoken)
    (pauseWoken : ¬ p .pauseWoken) (nobody : Nobody s.workers p) : Nobody s'.workers p :=
  nobody.of_imp fun _ => waking.before idleWoken pauseWoken

namespace Roused

theorem workerStep (roused : s.Roused) (started : w < s.threads) (step : WorkerStep s w s')
    (prompt : s.stopper.joins = true → s.workers w = .pauseRead → s.pause = false) :
    s'.Roused := by
  have flags : s'.stopper = s.stopper ∧ s'.shutdown = s.shutdown ∧ s'.pause = s.pause ∧
      s'.resumed = s.resumed := by
    cases step <;> exact ⟨rfl, rfl, rfl, rfl⟩
  obtain ⟨stopper, shutdown, pause, resumed⟩ := flags
  refine ⟨roused.toLocking.workerStep started step, ?_, ?_, ?_, ?_⟩
  · rw [stopper, shutdown]
    exact roused.flagged
  · rw [stopper]
    intro notified
    refine step.nobody_awaitsItem (roused.flagged ?_) (roused.notified notified)
    generalize s.stopper = stopper at notified
    cases stopper <;> first | rfl | simp [Stopper.joins, Stopper.notifiesPaused] at notified
  · rw [stopper]
    intro joins
    exact step.nobody_awaitsUnPause (prompt joins) (roused.joining joins)
  · rw [resumed, pause]
    intro resumed
    obtain ⟨runs, nobody⟩ := roused.resumed resumed
    exact ⟨runs, step.nobody_awaitsUnPause (fun _ => runs) nobody⟩

theorem waking (roused : s.Roused) (waking : Waking s s')
    (flagged : s'.stopper.flagSet = true → s'.shutdown = true)
    (notified : s'.stopper.joins = true ∨ s'.stopper.notifiesPaused = true →
      s.stopper.joins = true ∨ s.stopper.notifiesPaused = true)
    (joining : s'.stopper.joins = true → s.stopper.joins = true)
    (resumed : s'.resumed = true → s.resumed = true ∧ (s.pause = false → s'.pause = false)) :
    s'.Roused := by
  refine ⟨roused.toLocking.waking waking, flagged, fun past => ?_, fun joins => ?_,
    fun resumes => ?_⟩
  · exact waking.nobody Bool.noConfusion Bool.noConfusion (roused.notified (notified past))
  · exact waking.nobody Bool.noConfusion Bool.noConfusion (roused.joining (joining joins))
  · obtain ⟨before, pause⟩ := resumed resumes
    obtain ⟨runs, nobody⟩ := roused.resumed before
    exact ⟨pause runs, waking.nobody Bool.noConfusion Bool.noConfusion nobody⟩

theorem frame (roused : s.Roused) (waking : Waking s s') (stopper : s'.stopper = s.stopper)
    (shutdown : s'.shutdown = s.shutdown) (pause : s'.pause = s.pause)
    (resumed : s'.resumed = s.resumed) : s'.Roused := by
  apply roused.waking waking
  · rw [stopper, shutdown]
    exact roused.flagged
  · rw [stopper]
    exact id
  · rw [stopper]
    exact id
  · rw [pause, resumed]
    exact fun resumes => ⟨resumes, id⟩

theorem nobody_notifyAll (roused : s.Roused) {p : Stage → Prop} {wait blocked woken : Stage}
    (about : ∀ w < s.threads, s.workers w ≠ wait)
    (waits : ∀ stage, p stage → stage = wait ∨ stage = blocked) (start : ¬ p .start)
    (wakes : ¬ p woken) : Nobody (s.notifyAll blocked woken) p := by
  have reached : ∀ w, p (s.workers w) → s.workers w = blocked := by
    intro w here
    have started : w < s.threads := by
      apply roused.started
      intro atStart
      rw [atStart] at here
      exact start here
    exact (waits _ here).resolve_left (about w started)
  exact nobody_notified (fun stage => stage = blocked) reached wakes

theorem nobody_notifyIdle (roused : s.Roused) (about : ∀ w < s.threads, s.workers w ≠ .idleWait) :
    Nobody (s.notifyAll .idle .idleWoken) fun stage => stage.awaitsItem = true := by
  refine roused.nobody_notifyAll about (fun stage waits => ?_) Bool.noConfusion Bool.noConfusion
  cases stage with
  | idleWait => exact .inl rfl
  | idle => exact .inr rfl
  | _ => contradiction

theorem nobody_notifyPaused (roused : s.Roused)
    (about : ∀ w < s.threads, s.workers w ≠ .pauseWait) :
    Nobody (s.notifyAll .paused .pauseWoken) fun stage => stage.awaitsUnPause = true := by
  refine roused.nobody_notifyAll about (fun stage waits => ?_) Bool.noConfusion Bool.noConfusion
  cases stage with
  | pauseWait => exact .inl rfl
  | paused => exact .inr rfl
  | _ => contradiction

theorem transition (roused : s.Roused) (transition : Transition s event s')
    (prompt : s.Prompt event) : s'.Roused := by
  cases transition with
  | works started step => exact roused.workerStep started step prompt
  | accepts sequenceTag woken called free room idle =>
      have waking := wake_waking (s := s.push sequenceTag) idle
      refine roused.frame ⟨waking.threads, waking.mtx, waking.workers⟩ ?_ ?_ ?_ ?_ <;>
        cases woken <;> rfl
  | notifies woken idle =>
      refine roused.frame (wake_waking idle) ?_ ?_ ?_ ?_ <;> cases woken <;> rfl
  | wakesPaused w paused =>
      exact roused.frame (moveTo_waking (.inr ⟨paused, rfl⟩)) rfl rfl rfl rfl
  | pauses => exact roused.waking (.of_eq rfl rfl rfl) roused.flagged id id nofun
  | unpauses =>
      exact roused.waking (.of_eq rfl rfl rfl) roused.flagged id id fun resumes =>
        ⟨resumes, fun _ => rfl⟩
  | notifiesPause called =>
      have waking : Waking s { s with
          workers := s.notifyAll .paused .pauseWoken
          unpausing := s.unpausing - 1
          resumed := s.resumed || !s.pause } :=
        notifyAll_waking rfl rfl rfl (.inr ⟨rfl, rfl⟩)
      by_cases pause : s.pause = true
      · refine roused.waking waking roused.flagged id id fun resumes => ?_
        exact ⟨by simpa [pause] using resumes, id⟩
      · have runs : s.pause = false := by simpa using pause
        have nobody := roused.nobody_notifyPaused (prompt called runs)
        refine ⟨roused.toLocking.waking waking, roused.flagged, fun past => ?_,
          fun joins => nobody, fun resumes => ⟨runs, nobody⟩⟩
        exact waking.nobody Bool.noConfusion Bool.noConfusion (roused.notified past)
  | stops cancelQueue detachThreads running manned =>
      exact roused.waking (.of_eq rfl rfl rfl) (fun _ => rfl) nofun nofun
        fun resumes => ⟨resumes, id⟩
  | cancels detachThreads stops free | keeps detachThreads stops | closes stops free
  | leavesOpen stops =>
      have flagged := roused.flagged (by rw [stops]; rfl)
      exact roused.waking (.of_eq rfl rfl rfl) (fun _ => flagged) nofun nofun
        fun resumes => ⟨resumes, id⟩
  | notifiesAll detachThreads stops =>
      have waking : Waking s { s with
          workers := s.notifyAll .idle .idleWoken, stopper := .notified detachThreads } :=
        notifyAll_waking rfl rfl rfl (.inl ⟨rfl, rfl⟩)
      have nobody := roused.nobody_notifyIdle (prompt.1 (by rw [stops]; rfl))
      refine ⟨roused.toLocking.waking waking, fun _ => roused.flagged (by rw [stops]; rfl),
        fun _ => nobody, nofun, fun resumes => ?_⟩
      obtain ⟨runs, paused⟩ := roused.resumed resumes
      exact ⟨runs, waking.nobody Bool.noConfusion Bool.noConfusion paused⟩
  | notifiesPaused detachThreads stops =>
      have waking : Waking s { s with
          workers := s.notifyAll .paused .pauseWoken, stopper := .joining detachThreads 0 } :=
        notifyAll_waking rfl rfl rfl (.inr ⟨rfl, rfl⟩)
      have nobody := roused.nobody_notifyPaused (prompt.2 (by rw [stops]; rfl))
      have past := roused.notified (by rw [stops]; exact .inr rfl)
      refine ⟨roused.toLocking.waking waking, fun _ => roused.flagged (by rw [stops]; rfl),
        fun _ => waking.nobody Bool.noConfusion Bool.noConfusion past, fun _ => nobody,
        fun resumes => ⟨(roused.resumed resumes).1, nobody⟩⟩
  | joins detachThreads thread stops gone =>
      have joins : s.stopper.joins = true := by rw [stops]; rfl
      have flagged := roused.flagged (by rw [stops]; rfl)
      exact roused.waking (.of_eq rfl rfl rfl) (fun _ => flagged) (fun _ => .inl joins)
        (fun _ => joins) fun resumes => ⟨resumes, id⟩
  | returns detachThreads thread stops all =>
      exact roused.waking (.of_eq rfl rfl rfl) nofun nofun nofun fun resumes => ⟨resumes, id⟩
  | _ => exact roused.frame (.of_eq rfl rfl rfl) rfl rfl rfl rfl

theorem noneAsleep (roused : s.Roused) : s.NoneAsleep := by
  constructor
  · intro joins _ w
    constructor
    · intro idle
      apply roused.notified (.inl joins) w
      rw [idle]
      rfl
    · intro paused
      apply roused.joining joins w
      rw [paused]
      rfl
  · intro resumed w paused
    apply (roused.resumed resumed).2 w
    rw [paused]
    rfl

end Roused

theorem startWith_roused (threads maxQueueSize : ℕ) (autoflush : Bool) (batchSize : ℕ) :
    (startWith threads maxQueueSize autoflush batchSize).Roused where
  toLocking := (startWith_drains threads maxQueueSize autoflush batchSize).toLocking
  flagged := nofun
  notified := nofun
  joining := nofun
  resumed := nofun

/-- No wake-up is lost, of a worker thread or of a timer thread, if the notifications are prompt. -/
theorem noneAsleep_of_prompt (threads maxQueueSize : ℕ) (autoflush : Bool) (batchSize : ℕ)
    {events : List Event}
    (prompt : Along step Prompt (startWith threads maxQueueSize autoflush batchSize) events)
    (timerThreads : ℕ) {timerEvents : List TimerThreads.Event}
    (timerPrompt : Along TimerThreads.step TimerThreads.Prompt
      (TimerThreads.startWith timerThreads) timerEvents) :
    Always step NoneAsleep (startWith threads maxQueueSize autoflush batchSize) events ∧
      Always TimerThreads.step TimerThreads.NoneAsleep (TimerThreads.startWith timerThreads)
        timerEvents := by
  constructor
  · have roused := always_of_invariant
      (fun s event prompt (roused : s.Roused) => roused.transition (s.step_spec event) prompt)
      (startWith_roused threads maxQueueSize autoflush batchSize) prompt
    exact roused.mono fun s roused => roused.noneAsleep
  · have roused := always_of_invariant
      (fun s event prompt (roused : TimerThreads.Roused s) => roused.step event prompt)
      (TimerThreads.startWith_roused timerThreads) timerPrompt
    exact roused.mono fun s roused => roused.noneAsleep

theorem noneAsleep_of_prompt_blocked :
    let events : List Event := [.worker 0, .worker 0, .worker 0, .worker 0, .setPause, .clearPause,
      .notifyPause, .stop false false, .stopStep, .stopStep, .stopStep, .stopStep]
    let timerEvents : List TimerThreads.Event := [.thread 0 0 0 0, .thread 0 0 0 0,
      .thread 0 0 0 0, .stop false, .stopStep, .stopStep, .stopStep]
    Along step Prompt (startWith 1 4 false 0) events ∧
      Along TimerThreads.step TimerThreads.Prompt (TimerThreads.startWith 1) timerEvents ∧
      Always step NoneAsleep (startWith 1 4 false 0) events ∧
      Always TimerThreads.step TimerThreads.NoneAsleep (TimerThreads.startWith 1) timerEvents := by
  intro events timerEvents
  have prompt : Along step Prompt (startWith 1 4 false 0) events := by decide
  have timerPrompt : Along TimerThreads.step TimerThreads.Prompt (TimerThreads.startWith 1)
      timerEvents := by decide
  exact ⟨prompt, timerPrompt, noneAsleep_of_prompt 1 4 false 0 prompt 1 timerPrompt⟩

/-- `Stop` notifies after the thread's test and before its wait, in the worker and in the timer. -/
theorem notifiedTooEarly :
    (¬ ∀ events, Always step NoneAsleep (startWith 1 4 false 0) events) ∧
      ¬ ∀ events, Always TimerThreads.step TimerThreads.NoneAsleep (TimerThreads.startWith 1)
        events := by
  constructor
  · intro all
    have asleep := (all [.worker 0, .worker 0, .worker 0, .stop false false, .stopStep, .stopStep,
      .stopStep, .stopStep, .worker 0]).last
    exact (asleep.stop rfl rfl 0).1 rfl
  · intro all
    have asleep := (all [.stop false, .stopStep, .thread 0 0 0 0, .thread 0 0 0 0, .stopStep,
      .stopStep, .thread 0 0 0 0]).last
    exact asleep false 0 rfl rfl rfl 0 false rfl

end BackgroundWorker

end SpotGridBot.Worker
