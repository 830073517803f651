import SpotGridBot.Worker.Steps
import SpotGridBot.Lib.Runs

namespace SpotGridBot.Worker

def SameTag (a b : Element) : Prop := a.sequenceTag = b.sequenceTag ∧ a.sequenceTag ≠ none

def Stopper.detaches : Stopper → Bool
  | .flagged _ detachThreads | .queueDone detachThreads | .sequencesDone detachThreads
  | .notified detachThreads | .joining detachThreads _ => detachThreads
  | .absent | .returned => false

namespace BackgroundWorker

def Event.detaches : Event → Bool
  | .stop _ detachThreads => detachThreads
  | _ => false

variable {s : BackgroundWorker} {maxQueueSize w : ℕ} {elem : Element}

theorem Transition.attached {event : Event} {s' : BackgroundWorker}
    (transition : Transition s event s') (joins : event.detaches = false)
    (attached : s.stopper.detaches = false) : s'.stopper.detaches = false := by
  cases transition with
  | works started step => cases step <;> exact attached
  | notifies woken idle => cases woken <;> exact attached
  | accepts sequenceTag woken called free room idle => cases woken <;> exact attached
  | stops cancelQueue detachThreads running manned => exact joins
  | cancels detachThreads stops free => rwa [stops] at attached
  | keeps detachThreads stops => rwa [stops] at attached
  | closes stops free => rwa [stops] at attached
  | leavesOpen stops => rfl
  | notifiesAll detachThreads stops => rwa [stops] at attached
  | notifiesPaused detachThreads stops => rwa [stops] at attached
  | joins detachThreads thread stops gone => rwa [stops] at attached
  | returns detachThreads thread stops all => rfl
  | _ => exact attached

structure Safe (maxQueueSize : ℕ) (s : BackgroundWorker) : Prop where
  numbered : s.accepted.map Element.ticket = List.range s.accepted.length
  accepted : s.started ⊆ s.accepted
  once : s.started.Pairwise fun a b => a.ticket ≠ b.ticket
  inOrder : s.started.Pairwise fun a b => SameTag a b → a.ticket < b.ticket
  alone : ∀ w w' a b, s.workers w = .executing a → s.workers w' = .executing b → SameTag a b →
    w = w'
  size : s.queue.length ≤ maxQueueSize

structure Sound (maxQueueSize : ℕ) (s : BackgroundWorker) : Prop extends s.Safe maxQueueSize where
  sameSize : s.maxQueueSize = maxQueueSize
  queued : s.queue ⊆ s.accepted
  ordered : s.queue.Pairwise fun a b => a.ticket < b.ticket
  waiting : ∀ a ∈ s.started, ∀ b ∈ s.queue, a.ticket ≠ b.ticket
  behind : ∀ a ∈ s.started, ∀ b ∈ s.queue, SameTag a b → a.ticket < b.ticket
  opened : ∀ w a tag, s.workers w = .executing a → a.sequenceTag = some tag →
    tag ∈ s.openSequences

namespace Sound

theorem sameItems {s' : BackgroundWorker} (sound : s.Sound maxQueueSize)
    (same : SameItems s s') : s'.Sound maxQueueSize := by
  obtain ⟨queue, openSequences, accepted, started, finished, size, executing⟩ := same
  constructor
  case toSafe =>
    constructor
    · rw [accepted]
      exact sound.numbered
    · rw [started, accepted]
      exact sound.accepted
    · rw [started]
      exact sound.once
    · rw [started]
      exact sound.inOrder
    · intro w w' a b runs runs' sameTag
      exact sound.alone w w' a b ((executing w a).mp runs) ((executing w' b).mp runs') sameTag
    · rw [queue]
      exact sound.size
  · rw [size]
    exact sound.sameSize
  · rw [queue, accepted]
    exact sound.queued
  · rw [queue]
    exact sound.ordered
  · rw [started, queue]
    exact sound.waiting
  · rw [started, queue]
    exact sound.behind
  · intro w a tag runs tagged
    rw [openSequences]
    exact sound.opened w a tag ((executing w a).mp runs) tagged

theorem ticket_lt (sound : s.Sound maxQueueSize) (member : elem ∈ s.accepted) :
    elem.ticket < s.accepted.length := by
  apply List.mem_range.mp
  rw [← sound.numbered]
  exact List.mem_map_of_mem member

theorem push (sound : s.Sound maxQueueSize) (room : s.queue.length < s.maxQueueSize)
    (sequenceTag : Option ℕ) : (s.push sequenceTag).Sound maxQueueSize := by
  have earlier : ∀ a ∈ s.started, a.ticket < s.accepted.length := fun a member =>
    sound.ticket_lt (sound.accepted member)
  constructor
  case toSafe =>
    constructor
    · simp only [BackgroundWorker.push, List.map_append, List.map_cons, List.map_nil,
        List.length_append, List.length_singleton, List.range_succ, sound.numbered]
    · exact List.Subset.trans sound.accepted (List.subset_append_left _ _)
    · exact sound.once
    · exact sound.inOrder
    · exact sound.alone
    · have room := sound.sameSize ▸ room
      simp only [BackgroundWorker.push, List.length_append, List.length_singleton]
      omega
  · exact sound.sameSize
  · intro a member
    cases List.mem_append.mp member with
    | inl old => exact List.mem_append_left _ (sound.queued old)
    | inr new => exact List.mem_append_right _ new
  · refine List.pairwise_append.mpr ⟨sound.ordered, List.pairwise_singleton .., ?_⟩
    intro a member b new
    rw [List.mem_singleton.mp new]
    exact sound.ticket_lt (sound.queued member)
  · intro a member b member'
    cases List.mem_append.mp member' with
    | inl old => exact sound.waiting a member b old
    | inr new =>
        rw [List.mem_singleton.mp new]
        exact (earlier a member).ne
  · intro a member b member' sameTag
    cases List.mem_append.mp member' with
    | inl old => exact sound.behind a member b old sameTag
    | inr new =>
        rw [List.mem_singleton.mp new]
        exact earlier a member
  · exact sound.opened

theorem clear (sound : s.Sound maxQueueSize) :
    Sound maxQueueSize { s with queue := [] } :=
  { sound with
    size := Nat.zero_le _
    queued := List.nil_subset _
    ordered := List.Pairwise.nil
    waiting := fun _ _ _ member => absurd member List.not_mem_nil
    behind := fun _ _ _ member => absurd member List.not_mem_nil }

theorem finish (sound : s.Sound maxQueueSize) (executes : s.workers w = .executing elem) :
    (s.finish w elem).Sound maxQueueSize := by
  refine { sound with alone := ?_, opened := ?_ }
  · intro v v' a b runs runs'
    exact sound.alone v v' a b (finish_executing.mp runs).2 (finish_executing.mp runs').2
  · intro v a tag runs tagged
    obtain ⟨other, runs⟩ := finish_executing.mp runs
    have opened := sound.opened v a tag runs tagged
    change tag ∈ s.closeSequence elem
    unfold closeSequence
    cases tagged' : elem.sequenceTag with
    | none => exact opened
    | some tag' =>
        refine Finset.mem_erase.mpr ⟨fun same => other ?_, opened⟩
        exact sound.alone v w a elem runs executes
          ⟨by rw [tagged, tagged', same], by simp [tagged]⟩

section Take
variable (sound : s.Sound maxQueueSize)
include sound

theorem ahead (found : s.queue.find? s.acceptable = some elem) {b : Element}
    (later : b ∈ s.queue.eraseP s.acceptable) :
    elem.ticket ≠ b.ticket ∧ (SameTag elem b → elem.ticket < b.ticket) := by
  have perm := Ordered.find?_append_eraseP_perm s.acceptable s.queue
  have distinct : (elem :: s.queue.eraseP s.acceptable).Pairwise
      fun a b => a.ticket ≠ b.ticket := by
    rw [found] at perm
    exact perm.pairwise (sound.ordered.imp Nat.ne_of_lt) fun differ => Ne.symm differ
  have differ := (List.pairwise_cons.mp distinct).1 b later
  refine ⟨differ, fun sameTag => ?_⟩
  have accepts : s.acceptable elem = true := List.find?_some found
  have accepts' : s.acceptable b = true := by
    unfold acceptable at accepts ⊢
    rwa [← sameTag.1]
  have member : b ∈ s.queue := List.eraseP_sublist.subset later
  cases Ordered.rel_of_find?_eq_some sound.ordered found member accepts' with
  | inl same => exact absurd (congrArg Element.ticket same).symm differ
  | inr behind => exact behind

theorem not_sameTag (accepts : s.acceptable elem = true) {v : ℕ} {a : Element}
    (runs : s.workers v = .executing a) : ¬ SameTag a elem := by
  intro sameTag
  cases tagged : a.sequenceTag with
  | none => exact sameTag.2 tagged
  | some tag =>
      have opened := sound.opened v a tag runs tagged
      have tagged' : elem.sequenceTag = some tag := sameTag.1 ▸ tagged
      simp only [acceptable, tagged', opened, not_true_eq_false, decide_false] at accepts
      contradiction

theorem take_alone (accepts : s.acceptable elem = true) (v v' : ℕ) (a b : Element)
    (runs : (s.take w elem).workers v = .executing a)
    (runs' : (s.take w elem).workers v' = .executing b) (sameTag : SameTag a b) : v = v' := by
  cases take_executing.mp runs with
  | inl here =>
      cases take_executing.mp runs' with
      | inl here' => exact here.1.trans here'.1.symm
      | inr there' =>
          refine absurd ⟨sameTag.1.symm, ?_⟩ (here.2 ▸ sound.not_sameTag accepts there'.2)
          exact sameTag.1 ▸ sameTag.2
  | inr there =>
      cases take_executing.mp runs' with
      | inl here' => exact absurd sameTag (here'.2 ▸ sound.not_sameTag accepts there.2)
      | inr there' => exact sound.alone v v' a b there.2 there'.2 sameTag

theorem take (found : s.queue.find? s.acceptable = some elem) :
    (s.take w elem).Sound maxQueueSize := by
  have member : elem ∈ s.queue := List.mem_of_find?_eq_some found
  have sub : (s.queue.eraseP s.acceptable).Sublist s.queue := List.eraseP_sublist
  have started : ∀ {a}, a ∈ (s.take w elem).started → a ∈ s.started ∨ a = elem := by
    intro a member
    exact (List.mem_append.mp member).imp_right List.mem_singleton.mp
  constructor
  case toSafe =>
    constructor
    · exact sound.numbered
    · intro a member'
      cases started member' with
      | inl old => exact sound.accepted old
      | inr new =>
          rw [new]
          exact sound.queued member
    · refine List.pairwise_append.mpr ⟨sound.once, List.pairwise_singleton .., ?_⟩
      intro a old b new
      rw [List.mem_singleton.mp new]
      exact sound.waiting a old elem member
    · refine List.pairwise_append.mpr ⟨sound.inOrder, List.pairwise_singleton .., ?_⟩
      intro a old b new
      rw [List.mem_singleton.mp new]
      exact sound.behind a old elem member
    · exact sound.take_alone (List.find?_some found)
    · exact sub.length_le.trans sound.size
  · exact sound.sameSize
  · exact List.Subset.trans sub.subset sound.queued
  · exact sound.ordered.sublist sub
  · intro a member' b later
    cases started member' with
    | inl old => exact sound.waiting a old b (sub.subset later)
    | inr new =>
        rw [new]
        exact (sound.ahead found later).1
  · intro a member' b later
    cases started member' with
    | inl old => exact sound.behind a old b (sub.subset later)
    | inr new =>
        rw [new]
        exact (sound.ahead found later).2
  · intro v a tag runs tagged
    change tag ∈ s.openSequence elem
    unfold openSequence
    cases take_executing.mp runs with
    | inl here =>
        rw [← here.2, tagged]
        exact Finset.mem_insert_self tag _
    | inr there =>
        have opened := sound.opened v a tag there.2 tagged
        cases elem.sequenceTag with
        | none => exact opened
        | some tag' => exact Finset.mem_insert_of_mem opened

end Take

theorem effect {event : Event} {s' : BackgroundWorker} (sound : s.Sound maxQueueSize)
    (effect : Effect s event s') (attached : s.stopper.detaches = false) :
    s'.Sound maxQueueSize := by
  cases effect with
  | works started turn step =>
      cases step with
      | stays => exact sound
      | moves move => exact sound.sameItems move.sameItems
      | takes scans found => exact sound.take found
      | finishes executes free => exact sound.finish executes
  | quiet waking same => exact sound.sameItems same
  | accepts called free room enqueues waking pushed => exact (sound.push room _).sameItems pushed
  | clears cancels waking cleared => exact sound.clear.sameItems cleared
  | closes detaches waking =>
      rw [detaches] at attached
      contradiction

end Sound

theorem startWith_sound (threads maxQueueSize : ℕ) (autoflush : Bool) (batchSize : ℕ) :
    (startWith threads maxQueueSize autoflush batchSize).Sound maxQueueSize where
  numbered := rfl
  accepted := List.nil_subset _
  once := List.Pairwise.nil
  inOrder := List.Pairwise.nil
  alone := fun _ _ _ _ runs => Stage.noConfusion runs
  size := Nat.zero_le _
  sameSize := rfl
  queued := List.nil_subset _
  ordered := List.Pairwise.nil
  waiting := fun _ member => absurd member List.not_mem_nil
  behind := fun _ member => absurd member List.not_mem_nil
  opened := fun _ _ _ runs => Stage.noConfusion runs

end BackgroundWorker

end SpotGridBot.Worker
