import SpotGridBot.Worker.Tags

namespace SpotGridBot.Worker
open Runs

def Stopper.cancels : Stopper → Bool
  | .flagged cancelQueue _ => cancelQueue
  | _ => false

namespace BackgroundWorker

def Event.drains : Event → Bool
  | .stop cancelQueue detachThreads => !cancelQueue && !detachThreads
  | .clearQueue => false
  | _ => true

def Deserted (s : BackgroundWorker) : Prop :=
  0 < s.threads ∧ ∀ w < s.threads, s.workers w = .exited

instance (s : BackgroundWorker) : Decidable s.Deserted :=
  inferInstanceAs (Decidable (0 < s.threads ∧ ∀ w < s.threads, s.workers w = .exited))

def InTime (s : BackgroundWorker) : Event → Prop
  | .enqueueTagged _ _ =>
      s.enqueuing ≠ 0 → s.queue.length < s.maxQueueSize → s.stopper ≠ .returned → ¬ s.Deserted
  | _ => True

instance (s : BackgroundWorker) : (event : Event) → Decidable (s.InTime event)
  | .enqueueTagged _ _ => inferInstanceAs (Decidable (_ → _ → _ → ¬ s.Deserted))
  | .worker _ | .testShutdown | .clearQueue | .onFlush _ | .setPause | .clearPause | .notifyPause
  | .spuriousWake _ | .stop _ _ | .stopStep => .isTrue trivial

def LosesNothing (s : BackgroundWorker) (event : Event) : Prop :=
  (s.step event).stopper = .returned → s.stopper ≠ .returned →
    ∀ elem ∈ (s.step event).accepted, elem ∈ (s.step event).finished

instance (s : BackgroundWorker) (event : Event) : Decidable (s.LosesNothing event) :=
  inferInstanceAs (Decidable (_ → _ → ∀ elem ∈ (s.step event).accepted, _))

variable {s s' : BackgroundWorker} {w v : ℕ} {elem : Element} {event : Event}

structure Locking (s : BackgroundWorker) : Prop where
  holds : ∀ w, (s.workers w).locked = true → s.mtx = some w
  started : ∀ w, s.workers w ≠ .start → w < s.threads

structure Accounted (s : BackgroundWorker) : Prop where
  openOnly : ∀ tag ∈ s.openSequences, ∃ w elem,
    s.workers w = .executing elem ∧ elem.sequenceTag = some tag
  accounted : ∀ elem ∈ s.accepted,
    elem ∈ s.queue ∨ (∃ w, s.workers w = .executing elem) ∨ elem ∈ s.finished

structure Drains (s : BackgroundWorker) : Prop extends s.Locking, s.Accounted where
  blocked : ∀ w, s.workers w = .loop true → ∀ elem ∈ s.queue, s.acceptable elem = false
  drained : s.Deserted → s.stopper ≠ .returned → s.queue = []

structure Stopping (s : BackgroundWorker) : Prop where
  attached : s.stopper.detaches = false
  keeps : s.stopper.cancels = false
  manned : s.stopper ≠ .absent → 0 < s.threads
  joined : ∀ detachThreads thread, s.stopper = .joining detachThreads thread →
    ∀ w < thread, s.workers w = .exited

theorem Moves.locked {stage stage' : Stage} {mtx : Option ℕ} (move : Moves s w stage stage' mtx)
    (holds : stage.locked = true → s.mtx = some w) :
    (stage'.locked = true → mtx = some w) ∧ ∀ v, v ≠ w → s.mtx = some v → mtx = some v := by
  cases move with
  | start free | wake free | wakePause free =>
      refine ⟨fun _ => rfl, fun v other held => ?_⟩
      rw [free] at held
      contradiction
  | leave | block | blockPause =>
      refine ⟨Bool.noConfusion, fun v other held => ?_⟩
      rw [holds rfl] at held
      exact absurd (Option.some.inj held).symm other
  | enter | await | proceed | skipPause | askPause | awaitPause | noPause | scanned =>
      exact ⟨fun _ => holds rfl, fun v other held => held⟩

namespace Locking

theorem workerStep (locking : s.Locking) (started : w < s.threads) (step : WorkerStep s w s') :
    s'.Locking := by
  have others : ∀ v, v ≠ w → (s'.workers v).locked = true → s.mtx = some v := by
    intro v other locked
    rw [step.workers_of_ne other] at locked
    exact locking.holds v locked
  have inRange : ∀ v, s'.workers v ≠ .start → v < s'.threads := by
    intro v leaves
    rw [step.threads]
    by_cases same : v = w
    · exact same ▸ started
    · rw [step.workers_of_ne same] at leaves
      exact locking.started v leaves
  refine ⟨fun v locked => ?_, inRange⟩
  cases step with
  | stays => exact locking.holds v locked
  | moves move =>
      have moved := move.locked (locking.holds w)
      by_cases same : v = w
      · subst same
        simp only [moveTo, Function.update_self] at locked
        exact moved.1 locked
      · exact moved.2 v same (others v same locked)
  | takes scans found =>
      have held : s.mtx = some w := locking.holds w (by rw [scans]; rfl)
      by_cases same : v = w
      · subst same
        simp [take, unlock, moveTo, Stage.locked] at locked
      · rw [others v same locked] at held
        exact absurd (Option.some.inj held) same
  | finishes executes free =>
      by_cases same : v = w
      · exact congrArg some same.symm
      · rw [others v same locked] at free
        contradiction

theorem waking (locking : s.Locking) (waking : Waking s s') : s'.Locking := by
  constructor
  · intro w locked
    rw [waking.mtx]
    apply locking.holds
    exact waking.before (p := fun stage => stage.locked = true) nofun nofun locked
  · intro w runs
    rw [waking.threads]
    apply locking.started
    intro waits
    exact runs (waking.after (p := fun stage => stage = .start) nofun nofun waits)

theorem unlocked (locking : s.Locking) (free : s.mtx = none) (w : ℕ) :
    (s.workers w).locked = false := by
  cases locked : (s.workers w).locked with
  | false => rfl
  | true =>
      have held := locking.holds w locked
      rw [free] at held
      contradiction

end Locking

theorem WorkerStep.exited (step : WorkerStep s w s') (gone : s.workers v = .exited) :
    s'.workers v = .exited := by
  by_cases same : v = w
  · subst same
    cases step with
    | stays => exact gone
    | moves move =>
        rw [gone] at move
        cases move
    | takes scans found => exact absurd (gone.symm.trans scans) Stage.noConfusion
    | finishes executes free => exact absurd (gone.symm.trans executes) Stage.noConfusion
  · rw [step.workers_of_ne same]
    exact gone

theorem Waking.exited_iff (waking : Waking s s') :
    s'.workers v = .exited ↔ s.workers v = .exited :=
  ⟨waking.before (p := fun stage => stage = .exited) nofun nofun,
    waking.after (p := fun stage => stage = .exited) nofun nofun⟩

theorem Transition.exited (transition : Transition s event s') (gone : s.workers v = .exited) :
    s'.workers v = .exited := by
  cases transition.effect.waking with
  | inl worker =>
      obtain ⟨w, -, -, step⟩ := worker
      exact step.exited gone
  | inr waking => exact waking.exited_iff.mpr gone

theorem Transition.returned (transition : Transition s event s') (stops : s.stopper = .returned) :
    s'.stopper = .returned := by
  cases transition with
  | works started step => cases step <;> exact stops
  | accepts sequenceTag woken called free room idle => cases woken <;> exact stops
  | notifies woken idle => cases woken <;> exact stops
  | returns detachThreads thread stops' all => rfl
  | stops cancelQueue detachThreads stops' manned => exact absurd (stops.symm.trans stops') nofun
  | cancels detachThreads stops' free => exact absurd (stops.symm.trans stops') nofun
  | keeps detachThreads stops' => exact absurd (stops.symm.trans stops') nofun
  | closes stops' free => exact absurd (stops.symm.trans stops') nofun
  | leavesOpen stops' => exact absurd (stops.symm.trans stops') nofun
  | notifiesAll detachThreads stops' => exact absurd (stops.symm.trans stops') nofun
  | notifiesPaused detachThreads stops' => exact absurd (stops.symm.trans stops') nofun
  | joins detachThreads thread stops' gone => exact absurd (stops.symm.trans stops') nofun
  | _ => exact stops

theorem Waking.deserted_iff (waking : Waking s s') : s'.Deserted ↔ s.Deserted := by
  unfold Deserted
  simp only [waking.threads, waking.exited_iff]

theorem Stopping.transition (stopping : s.Stopping) (transition : Transition s event s')
    (drains : event.drains = true) : s'.Stopping := by
  have exited : ∀ w, s.workers w = .exited → s'.workers w = .exited := fun w =>
    transition.exited
  obtain ⟨attached, keeps, manned, joined⟩ := stopping
  have frame : s'.stopper = s.stopper → s'.threads = s.threads → s'.Stopping := by
    intro stopper threads
    constructor
    · rw [stopper]
      exact attached
    · rw [stopper]
      exact keeps
    · rw [stopper, threads]
      exact manned
    · intro detachThreads thread joining w before
      rw [stopper] at joining
      exact exited w (joined detachThreads thread joining w before)
  cases transition with
  | works started step => exact frame (by cases step <;> rfl) step.threads
  | accepts sequenceTag woken called free room idle =>
      exact frame (by cases woken <;> rfl) (by cases woken <;> rfl)
  | notifies woken idle => exact frame (by cases woken <;> rfl) (by cases woken <;> rfl)
  | stops cancelQueue detachThreads running manned =>
      simp only [Event.drains, Bool.and_eq_true, Bool.not_eq_true'] at drains
      exact ⟨drains.2, drains.1, fun _ => manned, fun _ _ joining => nomatch joining⟩
  | cancels detachThreads stops free =>
      rw [stops] at keeps
      contradiction
  | closes stops free =>
      rw [stops] at attached
      contradiction
  | keeps detachThreads stops =>
      rw [stops] at attached manned
      exact ⟨attached, rfl, fun _ => manned nofun, fun _ _ joining => nomatch joining⟩
  | leavesOpen stops =>
      rw [stops] at manned
      exact ⟨rfl, rfl, fun _ => manned nofun, fun _ _ joining => nomatch joining⟩
  | notifiesAll detachThreads stops =>
      rw [stops] at attached manned
      exact ⟨attached, rfl, fun _ => manned nofun, fun _ _ joining => nomatch joining⟩
  | notifiesPaused detachThreads stops =>
      rw [stops] at attached manned
      refine ⟨attached, rfl, fun _ => manned nofun, fun _ thread joining w before => ?_⟩
      cases joining
      contradiction
  | joins detachThreads thread stops gone =>
      rw [stops] at attached manned
      refine ⟨attached, rfl, fun _ => manned nofun, fun _ _ joining w before => ?_⟩
      cases joining
      cases Nat.lt_succ_iff_lt_or_eq.mp before with
      | inl earlier => exact joined detachThreads thread stops w earlier
      | inr last => exact last ▸ gone attached
  | returns detachThreads thread stops all =>
      rw [stops] at manned
      exact ⟨rfl, rfl, fun _ => manned nofun, fun _ _ joining => nomatch joining⟩
  | _ => exact frame rfl rfl

namespace Accounted

theorem sameItems (inv : s.Accounted) (same : SameItems s s') : s'.Accounted := by
  constructor
  · intro tag isOpen
    rw [same.openSequences] at isOpen
    obtain ⟨w, elem, executes, tagged⟩ := inv.openOnly tag isOpen
    exact ⟨w, elem, (same.executing w elem).mpr executes, tagged⟩
  · intro elem member
    rw [same.accepted] at member
    rw [same.queue, same.finished]
    simp only [same.executing]
    exact inv.accounted elem member

theorem push (inv : s.Accounted) (sequenceTag : Option ℕ) : (s.push sequenceTag).Accounted := by
  refine ⟨inv.openOnly, fun elem member => ?_⟩
  cases List.mem_append.mp member with
  | inl old => exact (inv.accounted elem old).imp_left (List.mem_append_left _)
  | inr new => exact .inl (List.mem_append_right _ new)

theorem take (inv : s.Accounted) (scans : s.workers w = .scan)
    (found : s.queue.find? s.acceptable = some elem) : (s.take w elem).Accounted := by
  have executes : (s.take w elem).workers w = .executing elem :=
    take_executing.mpr (.inl ⟨rfl, rfl⟩)
  have others : ∀ v a, s.workers v = .executing a → (s.take w elem).workers v = .executing a := by
    intro v a runs
    have other : v ≠ w := fun same => by
      rw [same, scans] at runs
      contradiction
    exact take_executing.mpr (.inr ⟨other, runs⟩)
  constructor
  · intro tag isOpen
    have old : tag ∈ s.openSequences → ∃ v a,
        (s.take w elem).workers v = .executing a ∧ a.sequenceTag = some tag := by
      intro isOpen
      obtain ⟨v, a, runs, tagged⟩ := inv.openOnly tag isOpen
      exact ⟨v, a, others v a runs, tagged⟩
    change tag ∈ s.openSequence elem at isOpen
    unfold openSequence at isOpen
    cases tagged : elem.sequenceTag with
    | none =>
        rw [tagged] at isOpen
        exact old isOpen
    | some tag' =>
        rw [tagged] at isOpen
        cases Finset.mem_insert.mp isOpen with
        | inl same => exact ⟨w, elem, executes, same ▸ tagged⟩
        | inr isOpen => exact old isOpen
  · intro a member
    cases inv.accounted a member with
    | inl queued =>
        have perm := Ordered.find?_append_eraseP_perm s.acceptable s.queue
        rw [found] at perm
        cases List.mem_cons.mp (perm.mem_iff.mp queued) with
        | inl same => exact .inr (.inl ⟨w, same ▸ executes⟩)
        | inr later => exact .inl later
    | inr taken =>
        refine .inr (taken.imp_left fun executed => ?_)
        obtain ⟨v, runs⟩ := executed
        exact ⟨v, others v a runs⟩

theorem goesOn {a : Element} (executes : s.workers w = .executing elem)
    (runs : s.workers v = .executing a) :
    a = elem ∨ (s.finish w elem).workers v = .executing a := by
  by_cases same : v = w
  · rw [same, executes] at runs
    exact .inl (Stage.executing.inj runs).symm
  · exact .inr (finish_executing.mpr ⟨same, runs⟩)

theorem finish (inv : s.Accounted) (executes : s.workers w = .executing elem) :
    (s.finish w elem).Accounted := by
  have stillOpen : ∀ tag ∈ s.openSequences, elem.sequenceTag ≠ some tag → ∃ v a,
      (s.finish w elem).workers v = .executing a ∧ a.sequenceTag = some tag := by
    intro tag isOpen differs
    obtain ⟨v, a, runs, opens⟩ := inv.openOnly tag isOpen
    cases goesOn executes runs with
    | inl same => exact absurd (same ▸ opens) differs
    | inr runs => exact ⟨v, a, runs, opens⟩
  constructor
  · intro tag isOpen
    change tag ∈ s.closeSequence elem at isOpen
    unfold closeSequence at isOpen
    cases tagged : elem.sequenceTag with
    | none =>
        rw [tagged] at isOpen
        exact stillOpen tag isOpen (by simp [tagged])
    | some tag' =>
        rw [tagged] at isOpen
        obtain ⟨differ, isOpen⟩ := Finset.mem_erase.mp isOpen
        exact stillOpen tag isOpen (by simpa [tagged] using differ.symm)
  · intro a member
    refine (inv.accounted a member).imp_right fun taken => ?_
    cases taken with
    | inl executed =>
        obtain ⟨v, runs⟩ := executed
        cases goesOn executes runs with
        | inl same => exact .inr (List.mem_append_right _ (List.mem_singleton.mpr same))
        | inr runs => exact .inl ⟨v, runs⟩
    | inr finished => exact .inr (List.mem_append_left _ finished)

end Accounted

theorem SameItems.acceptable (same : SameItems s s') (elem : Element) :
    s'.acceptable elem = s.acceptable elem := by
  unfold BackgroundWorker.acceptable
  rw [same.openSequences]

theorem Waking.loop (waking : Waking s s') (atEnd : s'.workers v = .loop true) :
    s.workers v = .loop true :=
  waking.before (p := fun stage => stage = .loop true) nofun nofun atEnd

namespace Drains

theorem waking (drains : s.Drains) (waking : Waking s s') (same : SameItems s s')
    (returned : s.stopper = .returned → s'.stopper = .returned) : s'.Drains := by
  refine ⟨drains.toLocking.waking waking, drains.toAccounted.sameItems same, ?_, ?_⟩
  · intro v atEnd a member
    rw [same.acceptable]
    rw [same.queue] at member
    exact drains.blocked v (waking.loop atEnd) a member
  · intro deserted stopping
    rw [same.queue]
    exact drains.drained (waking.deserted_iff.mp deserted) (stopping ∘ returned)

theorem accepts (drains : s.Drains) {sequenceTag : Option ℕ} (free : s.mtx = none)
    (inTime : s.stopper ≠ .returned → ¬ s.Deserted) (waking : Waking s s')
    (pushed : SameItems (s.push sequenceTag) s')
    (returned : s.stopper = .returned → s'.stopper = .returned) : s'.Drains := by
  refine ⟨drains.toLocking.waking waking, (drains.toAccounted.push sequenceTag).sameItems pushed,
    ?_, ?_⟩
  · intro v atEnd
    have unlocked := drains.toLocking.unlocked free v
    rw [waking.loop atEnd] at unlocked
    contradiction
  · intro deserted stopping
    exact absurd (waking.deserted_iff.mp deserted) (inTime (stopping ∘ returned))

theorem leaves (drains : s.Drains) (atEnd : s.workers w = .loop true)
    (others : ∀ v < s.threads, v ≠ w → s.workers v = .exited) : s.queue = [] := by
  apply List.eq_nil_iff_forall_not_mem.mpr
  intro elem member
  have refused := drains.blocked w atEnd elem member
  unfold acceptable at refused
  cases tagged : elem.sequenceTag with
  | none =>
      rw [tagged] at refused
      contradiction
  | some tag =>
      rw [tagged] at refused
      have isOpen : tag ∈ s.openSequences := by simpa using refused
      obtain ⟨v, a, executes, -⟩ := drains.openOnly tag isOpen
      have started : v < s.threads := drains.started v (by rw [executes]; exact Stage.noConfusion)
      have other : v ≠ w := fun same => by
        rw [same, atEnd] at executes
        contradiction
      rw [others v started other] at executes
      contradiction

theorem moves (drains : s.Drains) (started : w < s.threads) {stage : Stage} {mtx : Option ℕ}
    (move : Moves s w (s.workers w) stage mtx) :
    Drains { s.moveTo w stage with mtx := mtx } := by
  refine ⟨drains.toLocking.workerStep started (.moves move),
    drains.toAccounted.sameItems move.sameItems, ?_, ?_⟩
  · intro v atEnd
    by_cases same : v = w
    · rw [same, moveTo_workers, Function.update_self] at atEnd
      generalize s.workers w = stage' at move
      cases move with
      | start free =>
          have empty : s.queue = [] := List.isEmpty_iff.mp (Stage.loop.inj atEnd)
          intro elem member
          change elem ∈ s.queue at member
          rw [empty] at member
          contradiction
      | scanned refused => exact refused
      | _ => contradiction
    · rw [moveTo_workers, Function.update_of_ne same] at atEnd
      exact drains.blocked v atEnd
  · intro deserted stopping
    have gone := deserted.2 w started
    rw [moveTo_workers, Function.update_self] at gone
    have atEnd : s.workers w = .loop true := by
      generalize s.workers w = stage' at move ⊢
      cases move with
      | leave => rfl
      | _ => contradiction
    refine drains.leaves atEnd fun v started other => ?_
    have gone := deserted.2 v started
    rw [moveTo_workers, Function.update_of_ne other] at gone
    exact gone

theorem takes (drains : s.Drains) (started : w < s.threads) (scans : s.workers w = .scan)
    (found : s.queue.find? s.acceptable = some elem) : (s.take w elem).Drains := by
  refine ⟨drains.toLocking.workerStep started (.takes scans found),
    drains.toAccounted.take scans found, ?_, ?_⟩
  · intro v atEnd
    by_cases same : v = w
    · rw [same, take_workers, Function.update_self] at atEnd
      contradiction
    · rw [take_workers, Function.update_of_ne same] at atEnd
      have held := drains.holds v (by rw [atEnd]; rfl)
      rw [drains.holds w (by rw [scans]; rfl)] at held
      exact absurd (Option.some.inj held).symm same
  · intro deserted
    have gone := deserted.2 w started
    rw [take_workers, Function.update_self] at gone
    contradiction

theorem finishes (drains : s.Drains) (started : w < s.threads)
    (executes : s.workers w = .executing elem) (free : s.mtx = none) :
    (s.finish w elem).Drains := by
  refine ⟨drains.toLocking.workerStep started (.finishes executes free),
    drains.toAccounted.finish executes, ?_, ?_⟩
  · intro v atEnd
    by_cases same : v = w
    · rw [same, finish_workers, Function.update_self] at atEnd
      have empty : s.queue = [] := List.isEmpty_iff.mp (Stage.loop.inj atEnd)
      intro a member
      change a ∈ s.queue at member
      rw [empty] at member
      contradiction
    · rw [finish_workers, Function.update_of_ne same] at atEnd
      have unlocked := drains.toLocking.unlocked free v
      rw [atEnd] at unlocked
      contradiction
  · intro deserted
    have gone := deserted.2 w started
    rw [finish_workers, Function.update_self] at gone
    contradiction

theorem transition (drains : s.Drains) (stopping : s.Stopping)
    (transition : Transition s event s') (draining : event.drains = true)
    (inTime : s.InTime event) : s'.Drains := by
  have returned := transition.returned
  cases transition.effect with
  | works started turn step =>
      cases step with
      | stays => exact drains
      | moves move => exact drains.moves started move
      | takes scans found => exact drains.takes started scans found
      | finishes executes free => exact drains.finishes started executes free
  | quiet waking same => exact drains.waking waking same returned
  | accepts called free room enqueues waking pushed =>
      obtain ⟨notified, rfl⟩ := enqueues
      exact drains.accepts free (inTime called room) waking pushed returned
  | clears cancels waking cleared =>
      cases cancels with
      | inl event =>
          rw [event] at draining
          contradiction
      | inr stops =>
          obtain ⟨detachThreads, stops⟩ := stops
          have keeps := stopping.keeps
          rw [stops] at keeps
          contradiction
  | closes detaches waking =>
      have attached := stopping.attached
      rw [detaches] at attached
      contradiction

theorem losesNothing (drains : s.Drains) (stopping : s.Stopping)
    (transition : Transition s event s') (stopped : s'.stopper = .returned)
    (stops : s.stopper ≠ .returned) : ∀ elem ∈ s'.accepted, elem ∈ s'.finished := by
  cases transition with
  | returns detachThreads thread joining all =>
      have deserted : s.Deserted := by
        refine ⟨stopping.manned (by rw [joining]; nofun), fun w started => ?_⟩
        exact stopping.joined detachThreads thread joining w (started.trans_le all)
      intro elem member
      cases drains.accounted elem member with
      | inl queued =>
          rw [drains.drained deserted stops] at queued
          contradiction
      | inr taken =>
          cases taken with
          | inl executed =>
              obtain ⟨w, executes⟩ := executed
              have started : w < s.threads := by
                apply drains.started
                rw [executes]
                exact Stage.noConfusion
              rw [deserted.2 w started] at executes
              contradiction
          | inr finished => exact finished
  | works started step => exact absurd stopped (by cases step <;> exact stops)
  | accepts sequenceTag woken called free room idle =>
      exact absurd stopped (by cases woken <;> exact stops)
  | notifies woken idle => exact absurd stopped (by cases woken <;> exact stops)
  | _ => first | exact absurd stopped stops | contradiction

end Drains

theorem startWith_drains (threads maxQueueSize : ℕ) (autoflush : Bool) (batchSize : ℕ) :
    (startWith threads maxQueueSize autoflush batchSize).Drains where
  holds := fun _ locked => Bool.noConfusion locked
  started := fun _ runs => absurd rfl runs
  openOnly := fun _ isOpen => absurd isOpen (Finset.notMem_empty _)
  accounted := fun _ member => absurd member List.not_mem_nil
  blocked := fun _ atEnd => Stage.noConfusion atEnd
  drained := fun _ _ => rfl

theorem startWith_stopping (threads maxQueueSize : ℕ) (autoflush : Bool) (batchSize : ℕ) :
    (startWith threads maxQueueSize autoflush batchSize).Stopping where
  attached := rfl
  keeps := rfl
  manned := fun stops => absurd rfl stops
  joined := fun _ _ joining => Stopper.noConfusion joining

/-- A draining stop loses nothing if no item comes after the last thread. -/
theorem losesNothing_of_inTime (threads maxQueueSize : ℕ) (autoflush : Bool) (batchSize : ℕ)
    {events : List Event} (draining : ∀ event ∈ events, event.drains = true)
    (inTime : Along step InTime (startWith threads maxQueueSize autoflush batchSize) events) :
    Along step LosesNothing (startWith threads maxQueueSize autoflush batchSize) events := by
  have keep : ∀ (s : BackgroundWorker) (event : Event), event.drains = true ∧ s.InTime event →
      s.Drains ∧ s.Stopping → (s.step event).Drains ∧ (s.step event).Stopping := by
    intro s event allowed inv
    have transition := s.step_spec event
    exact ⟨inv.1.transition inv.2 transition allowed.1 allowed.2,
      inv.2.transition transition allowed.1⟩
  apply along_of_invariant keep
  · intro s event _ inv
    exact inv.1.losesNothing inv.2 (s.step_spec event)
  · exact ⟨startWith_drains .., startWith_stopping ..⟩
  · exact (along_of_forall draining _).and inTime

theorem losesNothing_of_inTime_whileStopping :
    let events : List Event := [.testShutdown, .stop false false, .enqueueTagged none none,
      .stopStep, .stopStep, .stopStep, .stopStep, .worker 0, .worker 0, .worker 0, .worker 0,
      .worker 0, .worker 0, .worker 0, .stopStep, .stopStep]
    (∀ event ∈ events, event.drains = true) ∧
      Along step InTime (startWith 1 4 false 0) events ∧
      Along step LosesNothing (startWith 1 4 false 0) events := by
  intro events
  have draining : ∀ event ∈ events, event.drains = true := by decide
  have inTime : Along step InTime (startWith 1 4 false 0) events := by decide
  exact ⟨draining, inTime, losesNothing_of_inTime 1 4 false 0 draining inTime⟩

/-- The caller is past its test when `Stop` sets the flag, and the thread leaves before the item
comes. -/
theorem lateItem_lost :
    ¬ ∀ events : List Event, (∀ event ∈ events, event.drains = true) →
      Along step LosesNothing (startWith 1 4 false 0) events := by
  intro all
  have late := all [.testShutdown, .stop false false, .stopStep, .stopStep, .stopStep, .stopStep,
    .worker 0, .worker 0, .enqueueTagged none none, .stopStep, .stopStep] (by decide)
  revert late
  decide

end BackgroundWorker

end SpotGridBot.Worker
