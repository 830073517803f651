import SpotGridBot.Worker.Tags

namespace SpotGridBot.Worker
open Runs

namespace Stage

def executed : Stage → List Element
  | .executing elem => [elem]
  | _ => []

end Stage

namespace BackgroundWorker

def Event.Plain : Event → Prop
  | .enqueueTagged sequenceTag _ => sequenceTag = none
  | .stop _ detachThreads => detachThreads = false
  | _ => True

def Event.Keeps : Event → Prop
  | .clearQueue => False
  | .stop cancelQueue _ => cancelQueue = false
  | _ => True

def keepsQueue : Stopper → Bool
  | .flagged true _ => false
  | _ => true

def Complete (s : BackgroundWorker) : Prop := s.accepted = s.started ++ s.queue

variable {s s' : BackgroundWorker} {event : Event} {w : ℕ} {elem : Element}

structure Fifo (s : BackgroundWorker) : Prop where
  untagged : ∀ elem ∈ s.accepted, elem.sequenceTag = none
  inOrder : (s.started ++ s.queue).Sublist s.accepted
  oneByOne : s.threads = 1 → s.started = s.finished ++ (s.workers 0).executed

namespace Fifo

theorem sameItems (fifo : s.Fifo) (same : SameItems s s') (threads : s'.threads = s.threads) :
    s'.Fifo := by
  have executed : (s'.workers 0).executed = (s.workers 0).executed := by
    have iff := same.executing 0
    cases here : s.workers 0 with
    | executing elem => rw [(iff elem).mpr here]
    | _ =>
        cases there : s'.workers 0 with
        | executing elem => exact absurd ((iff elem).mp there) (by simp [here])
        | _ => rfl
  constructor
  · rw [same.accepted]
    exact fifo.untagged
  · rw [same.started, same.queue, same.accepted]
    exact fifo.inOrder
  · rw [threads, same.started, same.finished, executed]
    exact fifo.oneByOne

theorem push (fifo : s.Fifo) : (s.push none).Fifo := by
  constructor
  · intro elem member
    rcases List.mem_append.mp member with old | new
    · exact fifo.untagged elem old
    · rw [List.mem_singleton.mp new]
  · change (s.started ++ (s.queue ++ _)).Sublist (s.accepted ++ _)
    rw [← List.append_assoc]
    exact fifo.inOrder.append (List.Sublist.refl _)
  · exact fifo.oneByOne

theorem clear (fifo : s.Fifo) : Fifo { s with queue := [] } := by
  refine ⟨fifo.untagged, ?_, fifo.oneByOne⟩
  have started := (List.sublist_append_left s.started s.queue).trans fifo.inOrder
  simpa using started

theorem found_head (fifo : s.Fifo) (found : s.queue.find? s.acceptable = some elem) :
    s.queue = elem :: s.queue.eraseP s.acceptable := by
  cases queue : s.queue with
  | nil =>
      rw [queue] at found
      contradiction
  | cons first rest =>
      have member : first ∈ s.accepted := by
        apply fifo.inOrder.subset
        simp [queue]
      have accepts : s.acceptable first = true := by
        unfold acceptable
        rw [fifo.untagged first member]
      rw [queue, List.find?_cons_of_pos accepts] at found
      rw [List.eraseP_cons_of_pos accepts, Option.some.inj found]

theorem take (fifo : s.Fifo) (started : w < s.threads) (scans : s.workers w = .scan)
    (found : s.queue.find? s.acceptable = some elem) : (s.take w elem).Fifo := by
  refine ⟨fifo.untagged, ?_, ?_⟩
  · have inOrder := fifo.inOrder
    rw [fifo.found_head found] at inOrder
    change ((s.started ++ [elem]) ++ s.queue.eraseP s.acceptable).Sublist s.accepted
    simpa using inOrder
  · intro alone
    obtain rfl : w = 0 := by
      change s.threads = 1 at alone
      omega
    have before := fifo.oneByOne alone
    rw [scans] at before
    change s.started ++ [elem] = s.finished ++ _
    rw [before, take_workers, Function.update_self]
    simp [Stage.executed]

theorem finish (fifo : s.Fifo) (started : w < s.threads) (executes : s.workers w = .executing elem) :
    (s.finish w elem).Fifo := by
  refine ⟨fifo.untagged, fifo.inOrder, ?_⟩
  intro alone
  obtain rfl : w = 0 := by
    change s.threads = 1 at alone
    omega
  have before := fifo.oneByOne alone
  rw [executes] at before
  change s.started = (s.finished ++ [elem]) ++ _
  rw [before, finish_workers, Function.update_self]
  simp [Stage.executed]

theorem effect (fifo : s.Fifo) (plain : event.Plain) (effect : Effect s event s')
    (attached : s.stopper.detaches = false) : s'.Fifo := by
  cases effect with
  | works started turn step =>
      cases step with
      | stays => exact fifo
      | moves move => exact fifo.sameItems move.sameItems rfl
      | takes scans found => exact fifo.take started scans found
      | finishes executes free => exact fifo.finish started executes
  | quiet waking same => exact fifo.sameItems same waking.threads
  | accepts called free room enqueues waking pushed =>
      obtain ⟨notified, rfl⟩ := enqueues
      obtain rfl := plain
      exact fifo.push.sameItems pushed waking.threads
  | clears cancels waking cleared => exact fifo.clear.sameItems cleared waking.threads
  | closes detaches waking =>
      rw [detaches] at attached
      contradiction

end Fifo

theorem Transition.keepsQueue (transition : Transition s event s') (keeps : event.Keeps)
    (kept : BackgroundWorker.keepsQueue s.stopper = true) :
    BackgroundWorker.keepsQueue s'.stopper = true := by
  cases transition with
  | works started step => cases step <;> exact kept
  | notifies woken idle => cases woken <;> exact kept
  | accepts sequenceTag woken called free room idle => cases woken <;> exact kept
  | stops cancelQueue detachThreads running manned =>
      obtain rfl : cancelQueue = false := keeps
      rfl
  | cancels detachThreads stops free => rfl
  | keeps detachThreads stops => rfl
  | closes stops free => rfl
  | leavesOpen stops => rfl
  | notifiesAll detachThreads stops => rfl
  | notifiesPaused detachThreads stops => rfl
  | joins detachThreads thread stops gone => rfl
  | returns detachThreads thread stops all => rfl
  | _ => exact kept

theorem Effect.complete (effect : Effect s event s') (fifo : s.Fifo) (complete : s.Complete)
    (keeps : event.Keeps) (kept : keepsQueue s.stopper = true)
    (attached : s.stopper.detaches = false) : s'.Complete := by
  unfold Complete at complete ⊢
  cases effect with
  | works started turn step =>
      cases step with
      | stays => exact complete
      | moves move => exact complete
      | takes scans found =>
          rw [fifo.found_head found] at complete
          change s.accepted = (s.started ++ [_]) ++ s.queue.eraseP s.acceptable
          rw [complete, List.append_assoc]
          rfl
      | finishes executes free => exact complete
  | quiet waking same => rw [same.accepted, same.started, same.queue, complete]
  | accepts called free room enqueues waking pushed =>
      rw [pushed.accepted, pushed.started, pushed.queue]
      change s.accepted ++ _ = s.started ++ (s.queue ++ _)
      rw [complete, List.append_assoc]
  | clears cancels waking cleared =>
      rcases cancels with rfl | ⟨detachThreads, flagged⟩
      · exact keeps.elim
      · rw [flagged] at kept
        contradiction
  | closes detaches waking =>
      rw [detaches] at attached
      contradiction

theorem Event.Plain.joins (plain : event.Plain) : event.detaches = false := by
  cases event with
  | stop cancelQueue detachThreads => exact plain
  | _ => rfl

theorem startWith_fifo (threads maxQueueSize : ℕ) (autoflush : Bool) (batchSize : ℕ) :
    (startWith threads maxQueueSize autoflush batchSize).Fifo where
  untagged _ member := absurd member List.not_mem_nil
  inOrder := List.Sublist.refl _
  oneByOne _ := rfl

end BackgroundWorker

end SpotGridBot.Worker
