import SpotGridBot.Worker.BackgroundWorker

namespace SpotGridBot.Worker
namespace BackgroundWorker
variable {s : BackgroundWorker} {w : ℕ}

inductive Moves (s : BackgroundWorker) (w : ℕ) : Stage → Stage → Option ℕ → Prop
  | start : s.mtx = none → Moves s w .start (.loop s.queue.isEmpty) (some w)
  | leave : s.shutdown = true → Moves s w (.loop true) .exited none
  | enter (atEnd : Bool) : Moves s w (.loop atEnd) (.idleTest atEnd) s.mtx
  | await : s.shutdown = false → Moves s w (.idleTest true) .idleWait s.mtx
  | proceed (atEnd : Bool) : Moves s w (.idleTest atEnd) .pauseTest s.mtx
  | block : Moves s w .idleWait .idle none
  | wake : s.mtx = none → Moves s w .idleWoken .pauseTest (some w)
  | skipPause : Moves s w .pauseTest .scan s.mtx
  | askPause : s.shutdown = false → Moves s w .pauseTest .pauseRead s.mtx
  | awaitPause : s.pause = true → Moves s w .pauseRead .pauseWait s.mtx
  | noPause : Moves s w .pauseRead .scan s.mtx
  | blockPause : Moves s w .pauseWait .paused none
  | wakePause : s.mtx = none → Moves s w .pauseWoken .scan (some w)
  | scanned : (∀ elem ∈ s.queue, s.acceptable elem = false) → Moves s w .scan (.loop true) s.mtx

inductive WorkerStep (s : BackgroundWorker) (w : ℕ) : BackgroundWorker → Prop
  | stays : WorkerStep s w s
  | moves {stage : Stage} {mtx : Option ℕ} (move : Moves s w (s.workers w) stage mtx) :
      WorkerStep s w { s.moveTo w stage with mtx := mtx }
  | takes {elem : Element} (scans : s.workers w = .scan)
      (found : s.queue.find? s.acceptable = some elem) : WorkerStep s w (s.take w elem)
  | finishes {elem : Element} (executes : s.workers w = .executing elem) (free : s.mtx = none) :
      WorkerStep s w (s.finish w elem)

theorem moveTo_workers (s : BackgroundWorker) (w : ℕ) (stage : Stage) :
    (s.moveTo w stage).workers = Function.update s.workers w stage := rfl

theorem take_workers (s : BackgroundWorker) (w : ℕ) (elem : Element) :
    (s.take w elem).workers = Function.update s.workers w (.executing elem) := rfl

theorem finish_workers (s : BackgroundWorker) (w : ℕ) (elem : Element) :
    (s.finish w elem).workers = Function.update s.workers w (.loop s.queue.isEmpty) := rfl

theorem take_executing {v : ℕ} {elem a : Element} :
    (s.take w elem).workers v = .executing a ↔
      v = w ∧ a = elem ∨ v ≠ w ∧ s.workers v = .executing a := by
  rw [take_workers, Function.update_apply, ite_eq_iff, Stage.executing.injEq, eq_comm (a := elem)]

theorem finish_executing {v : ℕ} {elem a : Element} :
    (s.finish w elem).workers v = .executing a ↔ v ≠ w ∧ s.workers v = .executing a := by
  rw [finish_workers, Function.update_apply, ite_eq_iff]
  simp

theorem lock_workerStep {stage : Stage}
    (move : s.mtx = none → Moves s w (s.workers w) stage (some w)) :
    WorkerStep s w (s.lock w stage) := by
  unfold lock
  split_ifs with free
  · exact .moves (move free)
  · exact .stays

theorem workerStep_spec (s : BackgroundWorker) (w : ℕ) : WorkerStep s w (s.workerStep w) := by
  unfold workerStep
  cases here : s.workers w with
  | start => exact lock_workerStep fun free => here ▸ .start free
  | loop atEnd =>
      simp only
      split_ifs with leaves
      · exact .moves (here ▸ leaves.2 ▸ .leave leaves.1)
      · exact .moves (here ▸ .enter atEnd)
  | idleTest atEnd =>
      simp only
      split_ifs with awaits
      · exact .moves (here ▸ awaits.2 ▸ .await (by simpa using awaits.1))
      · exact .moves (here ▸ .proceed atEnd)
  | idleWait => exact .moves (here ▸ .block)
  | idle => exact .stays
  | idleWoken => exact lock_workerStep fun free => here ▸ .wake free
  | pauseTest =>
      simp only
      split_ifs with stopping
      · exact .moves (here ▸ .skipPause)
      · exact .moves (here ▸ .askPause (by simpa using stopping))
  | pauseRead =>
      simp only
      split_ifs with pauses
      · exact .moves (here ▸ .awaitPause pauses)
      · exact .moves (here ▸ .noPause)
  | pauseWait => exact .moves (here ▸ .blockPause)
  | paused => exact .stays
  | pauseWoken => exact lock_workerStep fun free => here ▸ .wakePause free
  | scan =>
      simp only
      cases found : s.queue.find? s.acceptable with
      | none =>
          refine .moves (here ▸ .scanned fun elem member => ?_)
          simpa using List.find?_eq_none.mp found elem member
      | some elem => exact .takes here found
  | executing elem =>
      simp only
      split_ifs with free
      · exact .finishes here free
      · exact .stays
  | exited => exact .stays

inductive Transition (s : BackgroundWorker) : Event → BackgroundWorker → Prop
  | works {w : ℕ} {s' : BackgroundWorker} (started : w < s.threads) (step : WorkerStep s w s') :
      Transition s (.worker w) s'
  | stays (event : Event) : Transition s event s
  | enters (runs : s.shutdown = false) :
      Transition s .testShutdown { s with enqueuing := s.enqueuing + 1 }
  | accepts (sequenceTag woken : Option ℕ) (called : s.enqueuing ≠ 0) (free : s.mtx = none)
      (room : s.queue.length < s.maxQueueSize) (idle : ∀ w ∈ woken, s.workers w = .idle)
      (event : Event) (enqueues : ∃ notified, event = .enqueueTagged sequenceTag notified) :
      Transition s event ((s.push sequenceTag).wake woken)
  | rejects (event : Event) : Transition s event { s with enqueuing := s.enqueuing - 1 }
  | clears (free : s.mtx = none) : Transition s .clearQueue { s with queue := [] }
  | notifies (woken : Option ℕ) (idle : ∀ w ∈ woken, s.workers w = .idle) (event : Event) :
      Transition s event (s.wake woken)
  | wakesPaused (w : ℕ) (paused : s.workers w = .paused) (event : Event) :
      Transition s event (s.moveTo w .pauseWoken)
  | pauses : Transition s .setPause s.setPause
  | unpauses : Transition s .clearPause s.clearPause
  | notifiesPause (called : s.unpausing ≠ 0) : Transition s .notifyPause { s with
      workers := s.notifyAll .paused .pauseWoken
      unpausing := s.unpausing - 1
      resumed := s.resumed || !s.pause }
  | stops (cancelQueue detachThreads : Bool) (running : s.stopper = .absent)
      (manned : 0 < s.threads) : Transition s (.stop cancelQueue detachThreads) { s with
        shutdown := true, stopper := .flagged cancelQueue detachThreads }
  | cancels (detachThreads : Bool) (stops : s.stopper = .flagged true detachThreads)
      (free : s.mtx = none) :
      Transition s .stopStep { s with queue := [], stopper := .queueDone detachThreads }
  | keeps (detachThreads : Bool) (stops : s.stopper = .flagged false detachThreads) :
      Transition s .stopStep { s with stopper := .queueDone detachThreads }
  | closes (stops : s.stopper = .queueDone true) (free : s.mtx = none) :
      Transition s .stopStep { s with openSequences := ∅, stopper := .sequencesDone true }
  | leavesOpen (stops : s.stopper = .queueDone false) :
      Transition s .stopStep { s with stopper := .sequencesDone false }
  | notifiesAll (detachThreads : Bool) (stops : s.stopper = .sequencesDone detachThreads) :
      Transition s .stopStep { s with
        workers := s.notifyAll .idle .idleWoken, stopper := .notified detachThreads }
  | notifiesPaused (detachThreads : Bool) (stops : s.stopper = .notified detachThreads) :
      Transition s .stopStep { s with
        workers := s.notifyAll .paused .pauseWoken, stopper := .joining detachThreads 0 }
  | joins (detachThreads : Bool) (thread : ℕ) (stops : s.stopper = .joining detachThreads thread)
      (gone : detachThreads = false → s.workers thread = .exited) :
      Transition s .stopStep { s with stopper := .joining detachThreads (thread + 1) }
  | returns (detachThreads : Bool) (thread : ℕ) (stops : s.stopper = .joining detachThreads thread)
      (all : s.threads ≤ thread) :
      Transition s .stopStep { s with shutdown := false, stopper := .returned }

theorem notifyOne_transition {s' : BackgroundWorker} {event : Event} (woken : Option ℕ)
    (step : (∀ w ∈ woken, s'.workers w = .idle) → Transition s event (s'.wake woken)) :
    Transition s event ((s'.notifyOne woken).getD s) := by
  unfold notifyOne
  split_ifs with wakes
  · refine step fun w member => ?_
    rw [Option.mem_def.mp member] at wakes
    exact wakes.2
  · exact .stays event

theorem enqueueTagged_spec (s : BackgroundWorker) (sequenceTag woken : Option ℕ) :
    Transition s (.enqueueTagged sequenceTag woken) (s.enqueueTagged sequenceTag woken) := by
  unfold enqueueTagged
  split_ifs with disabled room waits
  · exact .stays _
  · push Not at disabled
    exact .accepts sequenceTag none disabled.1 disabled.2 room (fun w none => nomatch none) _
      ⟨woken, rfl⟩
  · push Not at disabled
    exact notifyOne_transition woken fun idle =>
      .accepts sequenceTag woken disabled.1 disabled.2 room idle _ ⟨woken, rfl⟩
  · exact .rejects _

theorem stopStep_spec (s : BackgroundWorker) : Transition s .stopStep s.stopStep := by
  unfold stopStep
  cases stops : s.stopper with
  | absent => exact .stays _
  | flagged cancelQueue detachThreads =>
      cases cancelQueue with
      | true =>
          simp only
          split_ifs with free
          · exact .cancels detachThreads stops free
          · exact .stays _
      | false => exact .keeps detachThreads stops
  | queueDone detachThreads =>
      cases detachThreads with
      | true =>
          simp only
          split_ifs with free
          · exact .closes stops free
          · exact .stays _
      | false => exact .leavesOpen stops
  | sequencesDone detachThreads => exact .notifiesAll detachThreads stops
  | notified detachThreads => exact .notifiesPaused detachThreads stops
  | joining detachThreads thread =>
      simp only
      split_ifs with waits gone
      · refine .joins detachThreads thread stops fun attached => ?_
        exact gone.resolve_left (by simp [attached])
      · exact .stays _
      · exact .returns detachThreads thread stops (Nat.le_of_not_lt waits)
  | returned => exact .stays _

theorem step_spec (s : BackgroundWorker) (event : Event) :
    Transition s event (s.step event) := by
  cases event with
  | worker w =>
      change Transition s _ (if w < s.threads then s.workerStep w else s)
      split_ifs with started
      · exact .works started (s.workerStep_spec w)
      · exact .stays _
  | testShutdown =>
      change Transition s _ s.testShutdown
      unfold testShutdown
      split_ifs with runs
      · exact .enters (by simpa using runs)
      · exact .stays _
  | enqueueTagged sequenceTag woken => exact s.enqueueTagged_spec sequenceTag woken
  | clearQueue =>
      change Transition s _ s.clearQueue
      unfold clearQueue
      split_ifs with free
      · exact .clears free
      · exact .stays _
  | onFlush woken =>
      change Transition s _ (s.onFlush woken)
      unfold onFlush
      split_ifs with waits
      · exact notifyOne_transition woken fun idle => .notifies woken idle _
      · exact .stays _
  | setPause => exact .pauses
  | clearPause => exact .unpauses
  | notifyPause =>
      change Transition s _ s.notifyPause
      unfold notifyPause
      split_ifs with none
      · exact .stays _
      · exact .notifiesPause none
  | spuriousWake w =>
      change Transition s _ (s.spuriousWake w)
      unfold spuriousWake
      cases here : s.workers w with
      | idle => exact .notifies (some w) (by simpa using here) _
      | paused => exact .wakesPaused w here _
      | _ => exact .stays _
  | stop cancelQueue detachThreads =>
      change Transition s _ (s.stop cancelQueue detachThreads)
      unfold stop
      split_ifs with starts
      · exact .stops cancelQueue detachThreads starts.1 starts.2
      · exact .stays _
  | stopStep => exact s.stopStep_spec

structure Waking (s s' : BackgroundWorker) : Prop where
  threads : s'.threads = s.threads
  mtx : s'.mtx = s.mtx
  workers : ∀ w, s'.workers w = s.workers w ∨
    s.workers w = .idle ∧ s'.workers w = .idleWoken ∨
    s.workers w = .paused ∧ s'.workers w = .pauseWoken

theorem Waking.of_eq {s' : BackgroundWorker} (threads : s'.threads = s.threads)
    (mtx : s'.mtx = s.mtx) (workers : s'.workers = s.workers) : Waking s s' :=
  ⟨threads, mtx, fun w => .inl (congrFun workers w)⟩

theorem moveTo_waking {stage : Stage} (woken : s.workers w = .idle ∧ stage = .idleWoken ∨
    s.workers w = .paused ∧ stage = .pauseWoken) : Waking s (s.moveTo w stage) := by
  refine ⟨rfl, rfl, fun v => ?_⟩
  simp only [moveTo]
  by_cases same : v = w
  · subst same
    rw [Function.update_self]
    exact .inr woken
  · rw [Function.update_of_ne same]
    exact .inl rfl

theorem wake_waking {woken : Option ℕ} (idle : ∀ w ∈ woken, s.workers w = .idle) :
    Waking s (s.wake woken) := by
  cases woken with
  | none => exact .of_eq rfl rfl rfl
  | some w => exact moveTo_waking (.inl ⟨idle w rfl, rfl⟩)

theorem notifyAll_waking {s' : BackgroundWorker} {blocked woken : Stage}
    (threads : s'.threads = s.threads) (mtx : s'.mtx = s.mtx)
    (workers : s'.workers = s.notifyAll blocked woken)
    (wakes : blocked = .idle ∧ woken = .idleWoken ∨ blocked = .paused ∧ woken = .pauseWoken) :
    Waking s s' := by
  refine ⟨threads, mtx, fun v => ?_⟩
  rw [workers]
  unfold notifyAll
  split_ifs with here
  · rw [here]
    exact .inr wakes
  · exact .inl rfl

theorem Waking.before {s' : BackgroundWorker} {v : ℕ} {p : Stage → Prop} (waking : Waking s s')
    (idleWoken : ¬ p .idleWoken) (pauseWoken : ¬ p .pauseWoken) (after : p (s'.workers v)) :
    p (s.workers v) := by
  cases waking.workers v with
  | inl same => exact same ▸ after
  | inr woken =>
      cases woken with
      | inl idle => exact absurd (idle.2 ▸ after) idleWoken
      | inr paused => exact absurd (paused.2 ▸ after) pauseWoken

theorem Waking.after {s' : BackgroundWorker} {v : ℕ} {p : Stage → Prop} (waking : Waking s s')
    (idle : ¬ p .idle) (paused : ¬ p .paused) (before : p (s.workers v)) : p (s'.workers v) := by
  cases waking.workers v with
  | inl same => exact same ▸ before
  | inr woken =>
      cases woken with
      | inl wakes => exact absurd (wakes.1 ▸ before) idle
      | inr wakes => exact absurd (wakes.1 ▸ before) paused

theorem Waking.executing_iff {s' : BackgroundWorker} (waking : Waking s s') (v : ℕ)
    (elem : Element) : s'.workers v = .executing elem ↔ s.workers v = .executing elem :=
  ⟨waking.before (p := fun stage => stage = .executing elem) nofun nofun,
    waking.after (p := fun stage => stage = .executing elem) nofun nofun⟩

structure SameItems (s s' : BackgroundWorker) : Prop where
  queue : s'.queue = s.queue
  openSequences : s'.openSequences = s.openSequences
  accepted : s'.accepted = s.accepted
  started : s'.started = s.started
  finished : s'.finished = s.finished
  maxQueueSize : s'.maxQueueSize = s.maxQueueSize
  executing : ∀ w elem, s'.workers w = .executing elem ↔ s.workers w = .executing elem

theorem SameItems.refl (s : BackgroundWorker) : SameItems s s :=
  ⟨rfl, rfl, rfl, rfl, rfl, rfl, fun _ _ => Iff.rfl⟩

theorem wake_sameItems {woken : Option ℕ} (waking : Waking s (s.wake woken)) :
    SameItems s (s.wake woken) := by
  cases woken with
  | none => exact SameItems.refl s
  | some w => exact ⟨rfl, rfl, rfl, rfl, rfl, rfl, waking.executing_iff⟩

theorem Moves.sameItems {stage : Stage} {mtx : Option ℕ}
    (move : Moves s w (s.workers w) stage mtx) :
    SameItems s { s.moveTo w stage with mtx := mtx } := by
  have idles : ∀ elem, s.workers w ≠ .executing elem ∧ stage ≠ .executing elem := by
    intro elem
    generalize s.workers w = before at move
    cases move <;> exact ⟨Stage.noConfusion, Stage.noConfusion⟩
  refine ⟨rfl, rfl, rfl, rfl, rfl, rfl, fun v elem => ?_⟩
  simp only [moveTo]
  by_cases same : v = w
  · subst same
    rw [Function.update_self]
    exact iff_of_false (idles elem).2 (idles elem).1
  · rw [Function.update_of_ne same]

inductive Effect (s : BackgroundWorker) (event : Event) (s' : BackgroundWorker) : Prop
  | works {w : ℕ} (started : w < s.threads) (turn : event = .worker w) (step : WorkerStep s w s')
  | quiet (waking : Waking s s') (same : SameItems s s')
  | accepts {sequenceTag : Option ℕ} (called : s.enqueuing ≠ 0) (free : s.mtx = none)
      (room : s.queue.length < s.maxQueueSize)
      (enqueues : ∃ notified, event = .enqueueTagged sequenceTag notified)
      (waking : Waking s s') (pushed : SameItems (s.push sequenceTag) s')
  | clears (cancels : event = .clearQueue ∨
        ∃ detachThreads, s.stopper = .flagged true detachThreads)
      (waking : Waking s s') (cleared : SameItems { s with queue := [] } s')
  | closes (detaches : s.stopper = .queueDone true) (waking : Waking s s')

theorem Transition.effect {event : Event} {s' : BackgroundWorker}
    (transition : Transition s event s') : Effect s event s' := by
  cases transition with
  | works started step => exact .works started rfl step
  | accepts sequenceTag woken called free room idle event enqueues =>
      have waking := wake_waking (s := s.push sequenceTag) idle
      exact .accepts called free room enqueues ⟨waking.threads, waking.mtx, waking.workers⟩
        (wake_sameItems waking)
  | clears free => exact .clears (.inl rfl) (.of_eq rfl rfl rfl) (SameItems.refl _)
  | cancels detachThreads stops free =>
      exact .clears (.inr ⟨detachThreads, stops⟩) (.of_eq rfl rfl rfl)
        ⟨rfl, rfl, rfl, rfl, rfl, rfl, fun _ _ => Iff.rfl⟩
  | closes stops free => exact .closes stops (.of_eq rfl rfl rfl)
  | notifies woken idle =>
      exact .quiet (wake_waking idle) (wake_sameItems (wake_waking idle))
  | wakesPaused w paused =>
      have waking : Waking s (s.moveTo w .pauseWoken) := moveTo_waking (.inr ⟨paused, rfl⟩)
      exact .quiet waking ⟨rfl, rfl, rfl, rfl, rfl, rfl, waking.executing_iff⟩
  | notifiesPause called | notifiesPaused detachThreads stops =>
      have waking : Waking s { s with workers := s.notifyAll .paused .pauseWoken } :=
        notifyAll_waking rfl rfl rfl (.inr ⟨rfl, rfl⟩)
      exact .quiet ⟨rfl, rfl, waking.workers⟩ ⟨rfl, rfl, rfl, rfl, rfl, rfl, waking.executing_iff⟩
  | notifiesAll detachThreads stops =>
      have waking : Waking s { s with workers := s.notifyAll .idle .idleWoken } :=
        notifyAll_waking rfl rfl rfl (.inl ⟨rfl, rfl⟩)
      exact .quiet ⟨rfl, rfl, waking.workers⟩ ⟨rfl, rfl, rfl, rfl, rfl, rfl, waking.executing_iff⟩
  | _ => exact .quiet (.of_eq rfl rfl rfl) ⟨rfl, rfl, rfl, rfl, rfl, rfl, fun _ _ => Iff.rfl⟩

theorem Effect.waking {event : Event} {s' : BackgroundWorker} (effect : Effect s event s') :
    (∃ w < s.threads, event = .worker w ∧ WorkerStep s w s') ∨ Waking s s' := by
  cases effect with
  | works started turn step => exact .inl ⟨_, started, turn, step⟩
  | quiet waking same => exact .inr waking
  | accepts called free room enqueues waking pushed => exact .inr waking
  | clears cancels waking cleared => exact .inr waking
  | closes detaches waking => exact .inr waking

theorem WorkerStep.workers_of_ne {s' : BackgroundWorker} {v : ℕ} (step : WorkerStep s w s')
    (other : v ≠ w) : s'.workers v = s.workers v := by
  cases step with
  | stays => rfl
  | moves move => exact Function.update_of_ne other ..
  | takes scans found => exact Function.update_of_ne other ..
  | finishes executes free => exact Function.update_of_ne other ..

theorem WorkerStep.threads {s' : BackgroundWorker} (step : WorkerStep s w s') :
    s'.threads = s.threads := by
  cases step <;> rfl

end BackgroundWorker

end SpotGridBot.Worker
