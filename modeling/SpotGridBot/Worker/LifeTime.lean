import SpotGridBot.Worker.Draining

/-!
# Starts and restarts

Items are accepted before the first `Start` and after a `Stop` as well, and what waits then is in
the queue when the threads start.
-/

namespace SpotGridBot.Worker
open Runs

namespace BackgroundWorker

def maxQueueSizeDefault : ℕ := 100000

def constructed (autoflush : Bool) (batchSize : ℕ) : BackgroundWorker :=
  startWith 0 maxQueueSizeDefault autoflush batchSize

/-- `m_threads` is empty, and the threads of an earlier `Start` were joined. -/
def Startable (s : BackgroundWorker) (workerThreads maxQueueSize : ℕ) : Prop :=
  (s.stopper = .absent ∧ s.threads = 0 ∨ s.stopper = .returned) ∧
    (∀ w < s.threads, s.workers w = .exited) ∧ 1 ≤ workerThreads ∧ 1 ≤ maxQueueSize

instance (s : BackgroundWorker) (workerThreads maxQueueSize : ℕ) :
    Decidable (s.Startable workerThreads maxQueueSize) :=
  inferInstanceAs (Decidable (_ ∧ _))

def start (s : BackgroundWorker) (workerThreads maxQueueSize : ℕ) : BackgroundWorker :=
  if s.Startable workerThreads maxQueueSize then
    { s with
      threads := workerThreads
      maxQueueSize := maxQueueSize
      workers := fun _ => .start
      stopper := .absent }
  else s

inductive LifeEvent where
  | start (workerThreads maxQueueSize : ℕ)
  | running (event : Event)

namespace LifeEvent

def detaches : LifeEvent → Bool
  | .start _ _ => false
  | .running event => event.detaches

end LifeEvent

def lifeStep (s : BackgroundWorker) : LifeEvent → BackgroundWorker
  | .start workerThreads maxQueueSize => s.start workerThreads maxQueueSize
  | .running event => s.step event

def StartsFitting (s : BackgroundWorker) : LifeEvent → Prop
  | .start workerThreads maxQueueSize =>
      s.Startable workerThreads maxQueueSize → s.queue.length ≤ maxQueueSize
  | .running _ => True

instance (s : BackgroundWorker) : (event : LifeEvent) → Decidable (s.StartsFitting event)
  | .start _ _ => inferInstanceAs (Decidable (_ → _))
  | .running _ => .isTrue trivial

structure Joined (s : BackgroundWorker) : Prop where
  attached : s.stopper.detaches = false
  joining : ∀ detachThreads thread, s.stopper = .joining detachThreads thread →
    ∀ w < thread, s.workers w = .exited
  returned : s.stopper = .returned → ∀ w < s.threads, s.workers w = .exited

variable {s s' : BackgroundWorker}

theorem Transition.joined {event : Event} (transition : Transition s event s')
    (joins : event.detaches = false) (joined : s.Joined) : s'.Joined := by
  have exited : ∀ w, s.workers w = .exited → s'.workers w = .exited := fun w => transition.exited
  have attached := transition.attached joins joined.attached
  have same : s'.stopper = s.stopper → s'.threads = s.threads → s'.Joined := by
    intro stopper threads
    refine ⟨attached, fun detachThreads thread joining w before => ?_, fun returned w before => ?_⟩
    · exact exited w (joined.joining detachThreads thread (stopper ▸ joining) w before)
    · exact exited w (joined.returned (stopper ▸ returned) w (threads ▸ before))
  have other : (∀ detachThreads thread, s'.stopper ≠ .joining detachThreads thread) →
      s'.stopper ≠ .returned → s'.Joined := by
    intro joining returned
    exact ⟨attached, fun detachThreads thread here => absurd here (joining _ _),
      fun here => absurd here returned⟩
  cases transition with
  | works started step => cases step <;> exact same rfl rfl
  | notifies woken idle => cases woken <;> exact same rfl rfl
  | accepts sequenceTag woken called free room idle => cases woken <;> exact same rfl rfl
  | stops cancelQueue detachThreads running manned => exact other nofun nofun
  | cancels detachThreads stops free => exact other nofun nofun
  | keeps detachThreads stops => exact other nofun nofun
  | closes stops free => exact other nofun nofun
  | leavesOpen stops => exact other nofun nofun
  | notifiesAll detachThreads stops => exact other nofun nofun
  | notifiesPaused detachThreads stops =>
      refine ⟨attached, fun detachThreads thread here w before => ?_, nofun⟩
      obtain ⟨-, rfl⟩ := Stopper.joining.inj here
      exact absurd before (Nat.not_lt_zero w)
  | joins detachThreads thread stops gone =>
      refine ⟨attached, fun detachThreads' thread' here w before => ?_, nofun⟩
      obtain ⟨-, rfl⟩ := Stopper.joining.inj here
      have waits : detachThreads = false := by
        have attached := joined.attached
        rwa [stops] at attached
      rcases Nat.lt_succ_iff_lt_or_eq.mp before with earlier | rfl
      · exact joined.joining detachThreads thread stops w earlier
      · exact gone waits
  | returns detachThreads thread stops all =>
      refine ⟨attached, nofun, fun _ w before => ?_⟩
      exact joined.joining detachThreads thread stops w (Nat.lt_of_lt_of_le before all)
  | _ => exact same rfl rfl

theorem joined_start (joined : s.Joined) (workerThreads maxQueueSize : ℕ) :
    (s.start workerThreads maxQueueSize).Joined := by
  unfold start
  split
  · exact ⟨rfl, nofun, nofun⟩
  · exact joined

theorem Joined.startable (joined : s.Joined) (returned : s.stopper = .returned)
    {workerThreads maxQueueSize : ℕ} (threads : 1 ≤ workerThreads) (size : 1 ≤ maxQueueSize) :
    s.Startable workerThreads maxQueueSize :=
  ⟨.inr returned, joined.returned returned, threads, size⟩

def SafeNow (s : BackgroundWorker) : Prop := s.Safe s.maxQueueSize

theorem Sound.start {maximum : ℕ} (sound : s.Sound maximum) {workerThreads maxQueueSize : ℕ}
    (fits : s.queue.length ≤ maxQueueSize) :
    Sound maxQueueSize { s with
      threads := workerThreads
      maxQueueSize := maxQueueSize
      workers := fun _ => .start
      stopper := .absent } where
  numbered := sound.numbered
  accepted := sound.accepted
  once := sound.once
  inOrder := sound.inOrder
  alone := nofun
  size := fits
  sameSize := rfl
  queued := sound.queued
  ordered := sound.ordered
  waiting := sound.waiting
  behind := sound.behind
  opened := nofun

def Lives (s : BackgroundWorker) : Prop := s.Sound s.maxQueueSize ∧ s.Joined

theorem lives_step (event : LifeEvent) (joins : event.detaches = false) (lives : s.Lives)
    (fitting : s.StartsFitting event) : (s.lifeStep event).Lives := by
  cases event with
  | start workerThreads maxQueueSize =>
      refine ⟨?_, joined_start lives.2 workerThreads maxQueueSize⟩
      change Sound (s.start workerThreads maxQueueSize).maxQueueSize
        (s.start workerThreads maxQueueSize)
      unfold BackgroundWorker.start
      split
      next startable => exact lives.1.start (fitting startable)
      next => exact lives.1
  | running event =>
      have transition := s.step_spec event
      have sound := lives.1.effect transition.effect lives.2.attached
      refine ⟨?_, transition.joined joins lives.2⟩
      have same : (s.step event).maxQueueSize = s.maxQueueSize := sound.sameSize
      change Sound (s.step event).maxQueueSize (s.step event)
      rw [same]
      exact sound

theorem constructed_lives (autoflush : Bool) (batchSize : ℕ) :
    (constructed autoflush batchSize).Lives :=
  ⟨startWith_sound 0 maxQueueSizeDefault autoflush batchSize, rfl, nofun, nofun⟩

/-- Every item is started at most once, the items of a tag one after the other in their order, and
the queue stays within the maximum exactly when no `Start` finds more items waiting than it allows. -/
theorem always_safe_iff (autoflush : Bool) (batchSize : ℕ) {events : List LifeEvent}
    (joins : ∀ event ∈ events, event.detaches = false) :
    Always lifeStep SafeNow (constructed autoflush batchSize) events ↔
      Along lifeStep StartsFitting (constructed autoflush batchSize) events := by
  apply always_iff_along _ (fun s lives => lives.1.toSafe) _
    (constructed_lives autoflush batchSize) (along_of_forall joins _)
  · exact fun s event joins lives fitting => lives_step event joins lives fitting
  · intro s event joins lives overfull safe
    cases event with
    | start workerThreads maxQueueSize =>
        obtain ⟨startable, full⟩ := Classical.not_imp.mp overfull
        have size : (s.start workerThreads maxQueueSize).queue.length ≤
            (s.start workerThreads maxQueueSize).maxQueueSize := safe.size
        rw [BackgroundWorker.start, if_pos startable] at size
        exact full size
    | running event => exact overfull trivial

def enqueuedBefore : List LifeEvent := [
  .running .testShutdown, .running (.enqueueTagged none none),
  .running .testShutdown, .running (.enqueueTagged none none), .start 1 1]

theorem enqueuedBefore_overfull :
    (∀ event ∈ enqueuedBefore, event.detaches = false) ∧
    (run lifeStep (constructed false 0) enqueuedBefore).maxQueueSize = 1 ∧
    (run lifeStep (constructed false 0) enqueuedBefore).queue.length = 2 ∧
    ¬ Always lifeStep SafeNow (constructed false 0) enqueuedBefore := by
  refine ⟨by decide, by decide, by decide, fun always => ?_⟩
  have size := always.last.size
  have full : ¬ (run lifeStep (constructed false 0) enqueuedBefore).queue.length ≤
      (run lifeStep (constructed false 0) enqueuedBefore).maxQueueSize := by decide
  exact full size

theorem always_safe_iff_twoThreads :
    let events : List LifeEvent := .start 2 4 :: [Event.testShutdown, .testShutdown,
      .enqueueTagged (some 7) none, .enqueueTagged (some 7) none, .worker 0, .worker 0, .worker 0,
      .worker 0, .worker 0, .worker 0, .worker 1, .worker 1, .worker 1, .worker 1, .worker 1,
      .worker 1].map .running
    Along lifeStep StartsFitting (constructed false 0) events ∧
      Always lifeStep SafeNow (constructed false 0) events := by
  intro events
  have joins : ∀ event ∈ events, event.detaches = false := by decide
  have fitting : Along lifeStep StartsFitting (constructed false 0) events := by decide
  exact ⟨fitting, (always_safe_iff false 0 joins).mpr fitting⟩

end BackgroundWorker

end SpotGridBot.Worker
