import SpotGridBot.Utils.Timer
import SpotGridBot.Lib.Runs
import SpotGridBot.Lib.Waiting

/-!
# The threads of a timer

The threads of a started `Timer`, one `Stop` and the other callers. A thread decides under `m_mtx`
how it waits, so that this is one step; `m_shutdown` is read and written without the mutex.
-/

namespace SpotGridBot.Utils
open Runs Waiting

inductive TimerStage where
  -- Locks `m_mtx` for the first time.
  | start
  | loop
  -- `IsShuttingDown()` was false.
  | wait
  -- Blocked in `m_cv`, with or without a timeout.
  | blocked (timeout : Bool)
  | woken
  | check
  | executing
  | exited
deriving DecidableEq

inductive TimerStopper where
  | absent
  | cancelling (detachThreads : Bool)
  | cancelled (detachThreads : Bool)
  | flagged (detachThreads : Bool)
  | joining (detachThreads : Bool) (thread : ℕ)
  | returned
deriving DecidableEq

def TimerStopper.notifies : TimerStopper → Bool
  | .flagged _ => true
  | _ => false

structure TimerThreads where
  timer : Timer := {}
  threads : ℕ
  shutdown : Bool := false
  mtx : Option ℕ := none
  stages : ℕ → TimerStage := fun _ => .start
  stopper : TimerStopper := .absent

namespace TimerThreads
variable (s : TimerThreads)

def moveTo (w : ℕ) (stage : TimerStage) : TimerThreads :=
  { s with stages := Function.update s.stages w stage }

def lock (w : ℕ) (stage : TimerStage) : TimerThreads :=
  if s.mtx = none then { s.moveTo w stage with mtx := some w } else s

def unlock (w : ℕ) (stage : TimerStage) : TimerThreads := { s.moveTo w stage with mtx := none }

/-- One step of a timer thread; the arguments are the clock and what the action makes of its
task. -/
def threadStep (w : ℕ) (scheduledTime interval clock : ℤ) : TimerThreads :=
  match s.stages w with
  | .start => s.lock w .loop
  | .loop => if s.shutdown then s.unlock w .exited else s.moveTo w .wait
  | .wait =>
      match s.timer.taskMap with
      | [] => s.unlock w (.blocked false)
      | (key, _) :: _ => if key - clock > 0 then s.unlock w (.blocked true) else s.moveTo w .check
  | .blocked _ => s
  | .woken => s.lock w .check
  | .check =>
      let timer := s.timer.takeTask w s.shutdown clock
      if (timer.executing w).isSome then { s.unlock w .executing with timer := timer }
      else s.moveTo w .loop
  | .executing =>
      if s.mtx = none then
        { s.moveTo w .loop with
          mtx := some w
          timer := s.timer.finishTask w scheduledTime interval clock }
      else s
  | .exited => s

def wake (w : ℕ) : TimerThreads :=
  match s.stages w with
  | .blocked _ => s.moveTo w .woken
  | _ => s

def call (event : Timer.Event) : TimerThreads :=
  match event with
  | .takeTask _ _ _ | .finishTask _ _ _ _ => s
  | event => if s.mtx = none then { s with timer := s.timer.step event } else s

def isBlocked : TimerStage → Bool
  | .blocked _ => true
  | _ => false

def notifyAll : ℕ → TimerStage := fun w =>
  if isBlocked (s.stages w) then .woken else s.stages w

/-- `Running()` holds and `IsShuttingDown()` does not in the call of `CancelAll`. -/
def stop (detachThreads : Bool) : TimerThreads :=
  if s.stopper = .absent ∧ 0 < s.threads then { s with stopper := .cancelling detachThreads }
  else s

def stopStep : TimerThreads :=
  match s.stopper with
  | .absent => s
  | .cancelling detachThreads =>
      if s.mtx = none then
        { s with timer := (s.timer.cancelAll ⟨true, false⟩).2, stopper := .cancelled detachThreads }
      else s
  | .cancelled detachThreads => { s with shutdown := true, stopper := .flagged detachThreads }
  | .flagged detachThreads => { s with stages := s.notifyAll, stopper := .joining detachThreads 0 }
  | .joining detachThreads thread =>
      if thread < s.threads then
        if detachThreads ∨ s.stages thread = .exited then
          { s with stopper := .joining detachThreads (thread + 1) }
        else s
      else { s with shutdown := false, stopper := .returned }
  | .returned => s

inductive Event where
  | thread (w : ℕ) (scheduledTime interval clock : ℤ)
  | wake (w : ℕ)
  | call (event : Timer.Event)
  | stop (detachThreads : Bool)
  | stopStep

def step (s : TimerThreads) : Event → TimerThreads
  | .thread w scheduledTime interval clock =>
      if w < s.threads then s.threadStep w scheduledTime interval clock else s
  | .wake w => s.wake w
  | .call event => s.call event
  | .stop detachThreads => s.stop detachThreads
  | .stopStep => s.stopStep

def startWith (threads : ℕ) : TimerThreads where
  threads := threads

def NoneAsleep (s : TimerThreads) : Prop :=
  ∀ detachThreads thread, s.stopper = .joining detachThreads thread → s.shutdown = true →
    s.timer.taskMap = [] → ∀ w timeout, s.stages w ≠ .blocked timeout

def Prompt (s : TimerThreads) : Event → Prop
  | .stopStep => s.stopper.notifies = true → ∀ w < s.threads, s.stages w ≠ .wait
  | _ => True

instance (s : TimerThreads) : (event : Event) → Decidable (s.Prompt event)
  | .stopStep => inferInstanceAs (Decidable (_ → ∀ w < s.threads, s.stages w ≠ .wait))
  | .thread _ _ _ _ | .wake _ | .call _ | .stop _ => .isTrue trivial

end TimerThreads

def TimerStage.waits : TimerStage → Bool
  | .wait | .blocked _ => true
  | _ => false

namespace TimerThreads
variable {s : TimerThreads} {w : ℕ} {event : Event}

structure Roused (s : TimerThreads) : Prop where
  started : ∀ w, s.stages w ≠ .start → w < s.threads
  flagged : ∀ detachThreads, s.stopper = .flagged detachThreads → s.shutdown = true
  joining : ∀ detachThreads thread, s.stopper = .joining detachThreads thread →
    s.shutdown = true ∧ Nobody s.stages fun stage => stage.waits = true

structure ThreadStep (s : TimerThreads) (w : ℕ) (s' : TimerThreads) : Prop where
  threads : s'.threads = s.threads
  shutdown : s'.shutdown = s.shutdown
  stopper : s'.stopper = s.stopper
  stages : ∃ stage, s'.stages = Function.update s.stages w stage ∧
    (stage.waits = true → (s.stages w).waits = true ∨ s.shutdown = false)

theorem ThreadStep.stays (s : TimerThreads) (w : ℕ) : ThreadStep s w s :=
  ⟨rfl, rfl, rfl, s.stages w, (Function.update_eq_self w s.stages).symm, Or.inl⟩

theorem ThreadStep.lock {stage : TimerStage} (runs : stage.waits = false) :
    ThreadStep s w (s.lock w stage) := by
  unfold TimerThreads.lock
  split_ifs with free
  · exact ⟨rfl, rfl, rfl, stage, rfl, fun waits => absurd waits (by simp [runs])⟩
  · exact .stays s w

theorem threadStep_spec (s : TimerThreads) (w : ℕ) (scheduledTime interval clock : ℤ) :
    ThreadStep s w (s.threadStep w scheduledTime interval clock) := by
  unfold threadStep
  cases here : s.stages w with
  | start => exact .lock rfl
  | loop =>
      simp only
      split_ifs with stopping
      · exact ⟨rfl, rfl, rfl, .exited, rfl, nofun⟩
      · exact ⟨rfl, rfl, rfl, .wait, rfl, fun _ => .inr (by simpa using stopping)⟩
  | wait =>
      simp only
      have about : (s.stages w).waits = true := by rw [here]; rfl
      cases s.timer.taskMap with
      | nil => exact ⟨rfl, rfl, rfl, .blocked false, rfl, fun _ => .inl about⟩
      | cons entry taskMap =>
          simp only
          split_ifs with later
          · exact ⟨rfl, rfl, rfl, .blocked true, rfl, fun _ => .inl about⟩
          · exact ⟨rfl, rfl, rfl, .check, rfl, nofun⟩
  | blocked timeout => exact .stays s w
  | woken => exact .lock rfl
  | check =>
      simp only
      split_ifs with taken
      · exact ⟨rfl, rfl, rfl, .executing, rfl, nofun⟩
      · exact ⟨rfl, rfl, rfl, .loop, rfl, nofun⟩
  | executing =>
      simp only
      split_ifs with free
      · exact ⟨rfl, rfl, rfl, .loop, rfl, nofun⟩
      · exact .stays s w
  | exited => exact .stays s w

theorem wake_spec (s : TimerThreads) (w : ℕ) : ThreadStep s w (s.wake w) := by
  unfold wake
  cases here : s.stages w with
  | blocked timeout => exact ⟨rfl, rfl, rfl, .woken, rfl, nofun⟩
  | _ => exact .stays s w

theorem Roused.threadStep {s' : TimerThreads} (roused : s.Roused) (step : ThreadStep s w s')
    (started : w < s.threads) : s'.Roused := by
  obtain ⟨threads, shutdown, stopper, stage, stages, waits⟩ := step
  constructor
  · intro v leaves
    rw [threads]
    by_cases same : v = w
    · exact same ▸ started
    · rw [stages, Function.update_of_ne same] at leaves
      exact roused.started v leaves
  · intro detachThreads stops
    rw [shutdown]
    exact roused.flagged detachThreads (stopper ▸ stops)
  · intro detachThreads thread stops
    obtain ⟨stopping, nobody⟩ := roused.joining detachThreads thread (stopper ▸ stops)
    rw [shutdown, stages]
    refine ⟨stopping, nobody.update w fun waits' => ?_⟩
    cases waits waits' with
    | inl about => exact nobody w about
    | inr runs =>
        rw [stopping] at runs
        contradiction

theorem Roused.started_of_waits (roused : s.Roused) (waits : (s.stages w).waits = true) :
    w < s.threads := by
  apply roused.started
  intro start
  rw [start] at waits
  contradiction

theorem Roused.stopStep (roused : s.Roused) (prompt : s.Prompt .stopStep) :
    s.stopStep.Roused := by
  unfold TimerThreads.stopStep
  cases stops : s.stopper with
  | absent | returned => exact roused
  | cancelling detachThreads =>
      simp only
      split_ifs with free
      · exact ⟨roused.started, nofun, nofun⟩
      · exact roused
  | cancelled detachThreads => exact ⟨roused.started, fun _ _ => rfl, nofun⟩
  | flagged detachThreads =>
      refine ⟨fun w leaves => ?_, nofun, fun _ _ _ => ⟨roused.flagged _ stops, ?_⟩⟩
      · refine roused.started w fun start => leaves ?_
        simp [notifyAll, start, isBlocked]
      · refine nobody_notified (fun stage => isBlocked stage = true) (fun w waits => ?_) nofun
        have started := roused.started_of_waits waits
        have passed := prompt (by rw [stops]; rfl) w started
        generalize s.stages w = stage at waits passed
        cases stage with
        | wait => contradiction
        | blocked timeout => rfl
        | _ => contradiction
  | joining detachThreads thread =>
      have joining := roused.joining detachThreads thread stops
      simp only
      split_ifs with before gone
      · exact ⟨roused.started, nofun, fun _ _ _ => joining⟩
      · exact roused
      · exact ⟨roused.started, nofun, nofun⟩

theorem Roused.step (roused : s.Roused) (event : Event) (prompt : s.Prompt event) :
    (s.step event).Roused := by
  cases event with
  | thread w scheduledTime interval clock =>
      change Roused (if w < s.threads then _ else s)
      split_ifs with started
      · exact roused.threadStep (s.threadStep_spec w scheduledTime interval clock) started
      · exact roused
  | wake w =>
      change (s.wake w).Roused
      by_cases started : w < s.threads
      · exact roused.threadStep (s.wake_spec w) started
      · have idle : s.stages w = .start := by
          by_contra leaves
          exact started (roused.started w leaves)
        unfold wake
        rw [idle]
        exact roused
  | call event =>
      have frame : ∀ timer, Roused { s with timer := timer } := fun timer =>
        ⟨roused.started, roused.flagged, roused.joining⟩
      change (s.call event).Roused
      unfold call
      split
      · exact roused
      · exact roused
      · split_ifs with free
        · exact frame _
        · exact roused
  | stop detachThreads =>
      change (s.stop detachThreads).Roused
      unfold stop
      split_ifs with running
      · exact ⟨roused.started, nofun, nofun⟩
      · exact roused
  | stopStep => exact roused.stopStep prompt

theorem Roused.noneAsleep (roused : s.Roused) : s.NoneAsleep := by
  intro detachThreads thread stops _ _ w timeout asleep
  apply (roused.joining detachThreads thread stops).2 w
  rw [asleep]
  rfl

theorem startWith_roused (threads : ℕ) : (startWith threads).Roused :=
  ⟨fun _ leaves => absurd rfl leaves, nofun, nofun⟩

end TimerThreads

end SpotGridBot.Utils
