import SpotGridBot.Lib.Ring
import SpotGridBot.Lib.Runs
import Mathlib.Logic.Function.Basic

/-!
# The one-to-one queue

One thread calls `Enqueue` and one calls `Dequeue`; their loads, stores and buffer accesses
interleave in any order. A step of a thread that is in no call does nothing.
-/

namespace SpotGridBot.Utils
open Runs

inductive Producer (T : Type) where
  | idle
  | testShutdown (value : T)
  | loadTail (value : T)
  | loadHead (value : T) (ixT : ℕ)
  | write (value : T) (ixT : ℕ)
  | storeTail (value : T) (ixT : ℕ)

inductive Consumer (T : Type) where
  | idle
  | loadHead
  | loadTail (ixH : ℕ)
  | move (ixH : ℕ)
  | clear (ixH : ℕ) (ref : T)
  | storeHead (ixH : ℕ) (ref : T)

def Producer.ix {T : Type} : Producer T → Option ℕ
  | .idle | .testShutdown _ | .loadTail _ => none
  | .loadHead _ ixT | .write _ ixT | .storeTail _ ixT => some ixT

def Consumer.ix {T : Type} : Consumer T → Option ℕ
  | .idle | .loadHead => none
  | .loadTail ixH | .move ixH | .clear ixH _ | .storeHead ixH _ => some ixH

structure OneToOneQueue (T : Type) where
  buffer : ℕ → T
  ixHead : ℕ := 0
  ixTail : ℕ := 0
  shutdown : Bool := false
  producer : Producer T := .idle
  consumer : Consumer T := .idle
  -- The values that `Enqueue` accepted and `Dequeue` returned, and for each slot the value written
  -- to it and not yet dequeued. No function of the source reads these.
  accepted : List T := []
  dequeued : List T := []
  holding : ℕ → Option T := fun _ => none

namespace OneToOneQueue
variable {T : Type} (maxCount : ℕ)

def size : ℕ := maxCount + 1

def inc (ix : ℕ) : ℕ := if ix < size maxCount - 1 then ix + 1 else 0

-- Where the sum wraps around in `size_t`, the difference wraps back.
def dist (ixH ixT : ℕ) : ℕ := if ixH ≤ ixT then ixT - ixH else ixT + size maxCount - ixH

variable (movedFrom : T → T) (q : OneToOneQueue T)

def queueSize : ℕ := dist maxCount q.ixHead q.ixTail

def produce : OneToOneQueue T :=
  match q.producer with
  | .idle => q
  | .testShutdown value =>
      if q.shutdown then { q with producer := .idle } else { q with producer := .loadTail value }
  | .loadTail value => { q with producer := .loadHead value q.ixTail }
  | .loadHead value ixT =>
      if dist maxCount q.ixHead ixT = maxCount then { q with producer := .idle }
      else { q with producer := .write value ixT }
  | .write value ixT =>
      { q with
        producer := .storeTail value ixT
        buffer := Function.update q.buffer ixT value
        holding := Function.update q.holding ixT (some value) }
  | .storeTail value ixT =>
      { q with
        producer := .idle, ixTail := inc maxCount ixT, accepted := q.accepted ++ [value] }

/-- The next step of `Dequeue`; `movedFrom` is what `std::move` leaves of a value. -/
def consume [Inhabited T] : OneToOneQueue T :=
  match q.consumer with
  | .idle => q
  | .loadHead => { q with consumer := .loadTail q.ixHead }
  | .loadTail ixH =>
      if dist maxCount ixH q.ixTail = 0 then { q with consumer := .idle }
      else { q with consumer := .move ixH }
  | .move ixH =>
      { q with
        consumer := .clear ixH (q.buffer ixH)
        buffer := Function.update q.buffer ixH (movedFrom (q.buffer ixH)) }
  | .clear ixH ref =>
      { q with consumer := .storeHead ixH ref, buffer := Function.update q.buffer ixH default }
  | .storeHead ixH ref =>
      { q with
        consumer := .idle, ixHead := inc maxCount ixH, dequeued := q.dequeued ++ [ref]
        holding := Function.update q.holding ixH none }

inductive Event (T : Type) where
  -- A call, by the thread that is in none.
  | enqueue (value : T)
  | dequeue
  | produce
  | consume

def step [Inhabited T] (q : OneToOneQueue T) : Event T → OneToOneQueue T
  | .enqueue value =>
      match q.producer with
      | .idle => { q with producer := .testShutdown value }
      | _ => q
  | .dequeue =>
      match q.consumer with
      | .idle => { q with consumer := .loadHead }
      | _ => q
  | .produce => q.produce maxCount
  | .consume => q.consume maxCount movedFrom

def empty [Inhabited T] : OneToOneQueue T := { buffer := fun _ => default }

/-! ## What the queue is for -/

def held : ℕ := q.accepted.length - q.dequeued.length

def EnqueueRefuses : Prop :=
  q.producer ≠ .idle ∧ (q.produce maxCount).producer = .idle ∧
    (q.produce maxCount).accepted = q.accepted

def DequeueRefuses [Inhabited T] : Prop :=
  q.consumer ≠ .idle ∧ (q.consume maxCount movedFrom).consumer = .idle ∧
    (q.consume maxCount movedFrom).dequeued = q.dequeued

structure Fifo [Inhabited T] : Prop where
  order : q.dequeued <+: q.accepted
  -- The value that a call of `Dequeue` is about to return is the next one accepted, and the slot
  -- that it clears holds no other.
  inHand : ∀ ixH ref, q.consumer = .clear ixH ref ∨ q.consumer = .storeHead ixH ref →
    q.dequeued ++ [ref] <+: q.accepted ∧ q.holding ixH = some ref
  free : ∀ value ixT, q.producer = .write value ixT → q.holding ixT = none
  indices : ∀ ix, ix = q.ixHead ∨ ix = q.ixTail ∨ q.producer.ix = some ix ∨ q.consumer.ix = some ix →
    ix < maxCount + 1
  capacity : q.held ≤ maxCount ∧ q.queueSize maxCount = q.held
  full : q.EnqueueRefuses maxCount →
    (∃ value, q.producer = .loadHead value q.ixTail) ∧ q.held = maxCount
  empty : q.DequeueRefuses maxCount movedFrom → q.consumer = .loadTail q.ixHead ∧ q.held = 0

/-! ## The invariant -/

def Producing : Prop :=
  match q.producer with
  | .idle | .testShutdown _ | .loadTail _ => True
  | .loadHead _ ixT => ixT = q.ixTail
  | .write _ ixT => ixT = q.ixTail ∧ q.accepted.length < q.dequeued.length + maxCount
  | .storeTail value ixT =>
      ixT = q.ixTail ∧ q.accepted.length < q.dequeued.length + maxCount ∧
        q.holding ixT = some value

def Consuming : Prop :=
  match q.consumer with
  | .idle | .loadHead => True
  | .loadTail ixH => ixH = q.ixHead
  | .move ixH => ixH = q.ixHead ∧ q.dequeued.length < q.accepted.length
  | .clear ixH ref | .storeHead ixH ref =>
      ixH = q.ixHead ∧ q.dequeued.length < q.accepted.length ∧ q.holding ixH = some ref

def Taken (slot : ℕ) : Prop :=
  ∃ ref, q.consumer = .clear slot ref ∨ q.consumer = .storeHead slot ref

structure Ordered : Prop where
  running : q.shutdown = false
  order : q.dequeued <+: q.accepted
  room : q.accepted.length ≤ q.dequeued.length + maxCount
  head : q.ixHead = q.dequeued.length % size maxCount
  tail : q.ixTail = q.accepted.length % size maxCount
  kept : ∀ i, q.dequeued.length ≤ i → i < q.accepted.length →
    q.holding (i % size maxCount) = q.accepted[i]?
  stored : ∀ slot value, q.holding slot = some value → ¬ q.Taken slot → q.buffer slot = value
  occupied : ∀ slot, q.holding slot ≠ none →
    (∃ i, q.dequeued.length ≤ i ∧ i < q.accepted.length ∧ slot = i % size maxCount) ∨
      ∃ value, q.producer = .storeTail value slot
  producing : q.Producing maxCount
  consuming : q.Consuming

variable {maxCount : ℕ} {movedFrom : T → T} {q q' : OneToOneQueue T}

theorem Producing.frame (producing : q.Producing maxCount) (point : q'.producer = q.producer)
    (tail : q'.ixTail = q.ixTail)
    (roomy : q.accepted.length < q.dequeued.length + maxCount →
      q'.accepted.length < q'.dequeued.length + maxCount)
    (written : q'.holding q.ixTail = q.holding q.ixTail) : q'.Producing maxCount := by
  unfold Producing at producing ⊢
  rw [point, tail]
  cases writing : q.producer with
  | idle | testShutdown value | loadTail value => trivial
  | loadHead value ixT => simpa [writing] using producing
  | write value ixT =>
      simp only [writing] at producing ⊢
      exact ⟨producing.1, roomy producing.2⟩
  | storeTail value ixT =>
      simp only [writing] at producing ⊢
      obtain ⟨rfl, room, held⟩ := producing
      exact ⟨rfl, roomy room, written.trans held⟩

theorem Consuming.frame (consuming : q.Consuming) (point : q'.consumer = q.consumer)
    (head : q'.ixHead = q.ixHead)
    (more : q.dequeued.length < q.accepted.length →
      q'.dequeued.length < q'.accepted.length ∧ q'.holding q.ixHead = q.holding q.ixHead) :
    q'.Consuming := by
  unfold Consuming at consuming ⊢
  rw [point, head]
  cases reading : q.consumer with
  | idle | loadHead => trivial
  | loadTail ixH => simpa [reading] using consuming
  | move ixH =>
      simp only [reading] at consuming ⊢
      exact ⟨consuming.1, (more consuming.2).1⟩
  | clear ixH ref | storeHead ixH ref =>
      simp only [reading] at consuming ⊢
      obtain ⟨rfl, some, held⟩ := consuming
      exact ⟨rfl, (more some).1, (more some).2.trans held⟩

namespace Ordered

theorem length_le (ordered : q.Ordered maxCount) : q.dequeued.length ≤ q.accepted.length :=
  ordered.order.length_le

theorem returned (ordered : q.Ordered maxCount) {ref : T}
    (more : q.dequeued.length < q.accepted.length) (held : q.holding q.ixHead = some ref) :
    q.dequeued ++ [ref] <+: q.accepted := by
  have value : q.accepted[q.dequeued.length]? = some ref := by
    rw [← ordered.kept q.dequeued.length (Nat.le_refl _) more, ← ordered.head]
    exact held
  have taken := List.prefix_iff_eq_take.mp ordered.order
  have next : q.dequeued ++ [ref] = q.accepted.take (q.dequeued.length + 1) := by
    rw [List.take_add_one, ← taken, value]
    rfl
  rw [next]
  exact List.take_prefix _ _

theorem ne_tail (ordered : q.Ordered maxCount) {i : ℕ} (from_head : q.dequeued.length ≤ i)
    (to_tail : i < q.accepted.length) : i % size maxCount ≠ q.ixTail := by
  have room := ordered.room
  rw [ordered.tail]
  exact Ring.mod_ne to_tail (by unfold size; omega)

theorem ne_head (ordered : q.Ordered maxCount) {i : ℕ} (past_head : q.dequeued.length < i)
    (to_tail : i ≤ q.accepted.length) : q.ixHead ≠ i % size maxCount := by
  have room := ordered.room
  rw [ordered.head]
  exact Ring.mod_ne past_head (by unfold size; omega)

theorem distance (ordered : q.Ordered maxCount) :
    dist maxCount q.ixHead q.ixTail = q.held := by
  have room := ordered.room
  rw [ordered.head, ordered.tail]
  exact Ring.distance_mod ordered.length_le (by unfold size; omega)

theorem withProducer (ordered : q.Ordered maxCount) (producer : Producer T)
    (producing : OneToOneQueue.Producing maxCount { q with producer := producer })
    (written : ∀ value slot, q.producer ≠ .storeTail value slot) :
    OneToOneQueue.Ordered maxCount { q with producer := producer } where
  running := ordered.running
  order := ordered.order
  room := ordered.room
  head := ordered.head
  tail := ordered.tail
  kept := ordered.kept
  stored := ordered.stored
  occupied := by
    intro slot holds
    cases ordered.occupied slot holds with
    | inl used => exact .inl used
    | inr stored => exact absurd stored.choose_spec (written stored.choose slot)
  producing := producing
  consuming := ordered.consuming

theorem withConsumer (ordered : q.Ordered maxCount) (consumer : Consumer T)
    (consuming : OneToOneQueue.Consuming { q with consumer := consumer })
    (taken : ∀ slot, ¬ q.Taken slot) :
    OneToOneQueue.Ordered maxCount { q with consumer := consumer } where
  running := ordered.running
  order := ordered.order
  room := ordered.room
  head := ordered.head
  tail := ordered.tail
  kept := ordered.kept
  stored := fun slot value holds _ => ordered.stored slot value holds (taken slot)
  occupied := ordered.occupied
  producing := ordered.producing
  consuming := consuming

theorem overwrite (ordered : q.Ordered maxCount) {consumer : Consumer T} (slot : ℕ) (value : T)
    (consuming : OneToOneQueue.Consuming { q with consumer := consumer })
    (taken : ∀ other, ¬ OneToOneQueue.Taken { q with consumer := consumer } other →
      other ≠ slot ∧ ¬ q.Taken other) :
    OneToOneQueue.Ordered maxCount
      { q with consumer := consumer, buffer := Function.update q.buffer slot value } where
  running := ordered.running
  order := ordered.order
  room := ordered.room
  head := ordered.head
  tail := ordered.tail
  kept := ordered.kept
  stored := by
    intro other held holds untaken
    obtain ⟨elsewhere, unread⟩ := taken other untaken
    exact (Function.update_of_ne elsewhere _ _).trans (ordered.stored other held holds unread)
  occupied := ordered.occupied
  producing := ordered.producing
  consuming := consuming

/-! ### What the invariant says -/

theorem indices (ordered : q.Ordered maxCount) {ix : ℕ}
    (index : ix = q.ixHead ∨ ix = q.ixTail ∨ q.producer.ix = some ix ∨ q.consumer.ix = some ix) :
    ix < maxCount + 1 := by
  have head : q.ixHead < maxCount + 1 := by
    rw [ordered.head]
    exact Nat.mod_lt _ (Nat.succ_pos _)
  have tail : q.ixTail < maxCount + 1 := by
    rw [ordered.tail]
    exact Nat.mod_lt _ (Nat.succ_pos _)
  have producing := ordered.producing
  have consuming := ordered.consuming
  unfold Producing at producing
  unfold Consuming at consuming
  obtain rfl | rfl | writing | reading := index
  · exact head
  · exact tail
  · cases point : q.producer <;> simp_all [Producer.ix]
  · cases point : q.consumer <;> simp_all [Consumer.ix]

theorem free (ordered : q.Ordered maxCount) {value : T} {ixT : ℕ}
    (point : q.producer = .write value ixT) : q.holding ixT = none := by
  have producing := ordered.producing
  simp only [Producing, point] at producing
  obtain ⟨rfl, -⟩ := producing
  by_contra holds
  cases ordered.occupied q.ixTail holds with
  | inl used =>
      obtain ⟨i, from_head, to_tail, same⟩ := used
      exact ordered.ne_tail from_head to_tail same.symm
  | inr stored => simp [point] at stored

theorem inHand (ordered : q.Ordered maxCount) {ixH : ℕ} {ref : T}
    (point : q.consumer = .clear ixH ref ∨ q.consumer = .storeHead ixH ref) :
    q.dequeued ++ [ref] <+: q.accepted ∧ q.holding ixH = some ref := by
  have consuming := ordered.consuming
  cases point with
  | inl point | inr point =>
      simp only [Consuming, point] at consuming
      obtain ⟨rfl, more, held⟩ := consuming
      exact ⟨ordered.returned more held, held⟩

theorem full (ordered : q.Ordered maxCount) (refuses : q.EnqueueRefuses maxCount) :
    (∃ value, q.producer = .loadHead value q.ixTail) ∧ q.held = maxCount := by
  obtain ⟨calling, ended, same⟩ := refuses
  cases point : q.producer with
  | idle => contradiction
  | testShutdown value => simp [OneToOneQueue.produce, point, ordered.running] at ended
  | loadTail value => simp [OneToOneQueue.produce, point] at ended
  | loadHead value ixT =>
      have producing := ordered.producing
      simp only [Producing, point] at producing
      subst producing
      refine ⟨⟨value, rfl⟩, ?_⟩
      simp only [OneToOneQueue.produce, point, ordered.distance] at ended
      by_contra spare
      rw [if_neg spare] at ended
      cases ended
  | write value ixT => simp [OneToOneQueue.produce, point] at ended
  | storeTail value ixT => simp [OneToOneQueue.produce, point] at same

/-! ### The steps of `Enqueue` -/

theorem write (ordered : q.Ordered maxCount) {value : T} {ixT : ℕ}
    (point : q.producer = .write value ixT) : (q.produce maxCount).Ordered maxCount := by
  have producing := ordered.producing
  simp only [Producing, point] at producing
  obtain ⟨rfl, roomy⟩ := producing
  simp only [produce, point]
  constructor
  · exact ordered.running
  · exact ordered.order
  · exact ordered.room
  · exact ordered.head
  · exact ordered.tail
  · intro i from_head to_tail
    show Function.update q.holding q.ixTail (some value) (i % size maxCount) = _
    rw [Function.update_of_ne (ordered.ne_tail from_head to_tail)]
    exact ordered.kept i from_head to_tail
  · intro slot stored holds untaken
    by_cases here : slot = q.ixTail
    · subst here
      simpa using holds
    · simp only [Function.update_of_ne here] at holds ⊢
      exact ordered.stored slot stored holds untaken
  · intro slot holds
    by_cases here : slot = q.ixTail
    · exact .inr ⟨value, by rw [here]⟩
    · simp only [Function.update_of_ne here] at holds
      refine .inl ((ordered.occupied slot holds).resolve_right ?_)
      simp [point]
  · exact ⟨rfl, roomy, Function.update_self ..⟩
  · refine ordered.consuming.frame rfl rfl fun more => ⟨more, Function.update_of_ne ?_ _ _⟩
    rw [ordered.head]
    exact ordered.ne_tail (Nat.le_refl _) more

theorem storeTail (ordered : q.Ordered maxCount) {value : T} {ixT : ℕ}
    (point : q.producer = .storeTail value ixT) : (q.produce maxCount).Ordered maxCount := by
  have producing := ordered.producing
  simp only [Producing, point] at producing
  obtain ⟨rfl, roomy, written⟩ := producing
  simp only [produce, point]
  constructor
  · exact ordered.running
  · exact ordered.order.trans (List.prefix_append _ _)
  · simp only [List.length_append, List.length_singleton]
    omega
  · exact ordered.head
  · simp only [ordered.tail, List.length_append, List.length_singleton]
    exact Ring.next_mod (Nat.succ_pos _) _
  · intro i from_head to_tail
    simp only [List.length_append, List.length_singleton] at to_tail
    by_cases last : i < q.accepted.length
    · rw [List.getElem?_append_left last]
      exact ordered.kept i from_head last
    · obtain rfl : i = q.accepted.length := by omega
      rw [List.getElem?_concat_length, ← ordered.tail]
      exact written
  · exact ordered.stored
  · intro slot holds
    simp only [List.length_append, List.length_singleton]
    cases ordered.occupied slot holds with
    | inl used =>
        obtain ⟨i, from_head, to_tail, rfl⟩ := used
        exact .inl ⟨i, from_head, by omega, rfl⟩
    | inr stored =>
        obtain ⟨later, same⟩ := stored
        rw [point] at same
        cases same
        exact .inl ⟨q.accepted.length, ordered.length_le, by omega, ordered.tail⟩
  · trivial
  · refine ordered.consuming.frame rfl rfl fun more => ⟨?_, rfl⟩
    simp only [List.length_append, List.length_singleton]
    omega

theorem produce (ordered : q.Ordered maxCount) : (q.produce maxCount).Ordered maxCount := by
  cases point : q.producer with
  | idle =>
      simp only [OneToOneQueue.produce, point]
      exact ordered
  | testShutdown value =>
      simp only [OneToOneQueue.produce, point]
      rw [if_neg (by simp [ordered.running])]
      exact ordered.withProducer (.loadTail value) trivial (by simp [point])
  | loadTail value =>
      simp only [OneToOneQueue.produce, point]
      exact ordered.withProducer (.loadHead value q.ixTail) rfl (by simp [point])
  | loadHead value ixT =>
      have producing := ordered.producing
      simp only [Producing, point] at producing
      subst producing
      simp only [OneToOneQueue.produce, point]
      split
      · exact ordered.withProducer .idle trivial (by simp [point])
      next spare =>
        have room := ordered.room
        rw [ordered.distance] at spare
        have roomy : q.accepted.length < q.dequeued.length + maxCount := by
          unfold held at spare
          omega
        exact ordered.withProducer (.write value q.ixTail) ⟨rfl, roomy⟩ (by simp [point])
  | write value ixT => exact ordered.write point
  | storeTail value ixT => exact ordered.storeTail point

/-! ### The steps of `Dequeue` -/

variable [Inhabited T]

theorem move (ordered : q.Ordered maxCount) {ixH : ℕ} (point : q.consumer = .move ixH) :
    (q.consume maxCount movedFrom).Ordered maxCount := by
  have consuming := ordered.consuming
  simp only [Consuming, point] at consuming
  obtain ⟨rfl, more⟩ := consuming
  have untaken (slot : ℕ) : ¬ q.Taken slot := by simp [Taken, point]
  have held : q.holding q.ixHead = some (q.buffer q.ixHead) := by
    have kept := ordered.kept q.dequeued.length (Nat.le_refl _) more
    rw [← ordered.head, List.getElem?_eq_getElem more] at kept
    rw [kept, ordered.stored q.ixHead _ kept (untaken _)]
  simp only [consume, point]
  refine ordered.overwrite q.ixHead _ ⟨rfl, more, held⟩ fun slot unread => ⟨?_, untaken slot⟩
  rintro rfl
  exact unread ⟨_, .inl rfl⟩

theorem clear (ordered : q.Ordered maxCount) {ixH : ℕ} {ref : T}
    (point : q.consumer = .clear ixH ref) : (q.consume maxCount movedFrom).Ordered maxCount := by
  have consuming := ordered.consuming
  simp only [Consuming, point] at consuming
  simp only [consume, point]
  refine ordered.overwrite ixH _ consuming fun slot unread => ?_
  have other : slot ≠ ixH := by
    rintro rfl
    exact unread ⟨ref, .inr rfl⟩
  exact ⟨other, by simp [Taken, point, Ne.symm other]⟩

theorem storeHead (ordered : q.Ordered maxCount) {ixH : ℕ} {ref : T}
    (point : q.consumer = .storeHead ixH ref) :
    (q.consume maxCount movedFrom).Ordered maxCount := by
  have consuming := ordered.consuming
  simp only [Consuming, point] at consuming
  obtain ⟨rfl, more, held⟩ := consuming
  have returned := ordered.returned more held
  simp only [consume, point]
  constructor
  · exact ordered.running
  · exact returned
  · have room := ordered.room
    simp only [List.length_append, List.length_singleton]
    omega
  · simp only [ordered.head, List.length_append, List.length_singleton]
    exact Ring.next_mod (Nat.succ_pos _) _
  · exact ordered.tail
  · intro i from_head to_tail
    simp only [List.length_append, List.length_singleton] at from_head
    show Function.update q.holding q.ixHead none (i % size maxCount) = _
    rw [Function.update_of_ne (ordered.ne_head from_head (Nat.le_of_lt to_tail)).symm]
    exact ordered.kept i (Nat.le_of_lt from_head) to_tail
  · intro slot stored holds _
    by_cases here : slot = q.ixHead
    · simp [here] at holds
    · simp only [Function.update_of_ne here] at holds
      refine ordered.stored slot stored holds ?_
      simp [Taken, point, Ne.symm here]
  · intro slot holds
    simp only [List.length_append, List.length_singleton]
    by_cases here : slot = q.ixHead
    · simp [here] at holds
    · simp only [Function.update_of_ne here] at holds
      cases ordered.occupied slot holds with
      | inl used =>
          obtain ⟨i, from_head, to_tail, rfl⟩ := used
          have later : i ≠ q.dequeued.length := by
            rintro rfl
            exact here ordered.head.symm
          exact .inl ⟨i, by omega, to_tail, rfl⟩
      | inr stored => exact .inr stored
  · refine ordered.producing.frame rfl rfl ?_ (Function.update_of_ne ?_ _ _)
    · simp only [List.length_append, List.length_singleton]
      omega
    · rw [ordered.tail]
      exact (ordered.ne_head more (Nat.le_refl _)).symm
  · trivial

theorem consume (ordered : q.Ordered maxCount) :
    (q.consume maxCount movedFrom).Ordered maxCount := by
  cases point : q.consumer with
  | idle =>
      simp only [OneToOneQueue.consume, point]
      exact ordered
  | loadHead =>
      simp only [OneToOneQueue.consume, point]
      exact ordered.withConsumer (.loadTail q.ixHead) rfl (by simp [Taken, point])
  | loadTail ixH =>
      have consuming := ordered.consuming
      simp only [Consuming, point] at consuming
      subst consuming
      simp only [OneToOneQueue.consume, point]
      split
      · exact ordered.withConsumer .idle trivial (by simp [Taken, point])
      next some =>
        rw [ordered.distance] at some
        have more : q.dequeued.length < q.accepted.length := by
          unfold held at some
          omega
        exact ordered.withConsumer (.move q.ixHead) ⟨rfl, more⟩ (by simp [Taken, point])
  | move ixH => exact ordered.move point
  | clear ixH ref => exact ordered.clear point
  | storeHead ixH ref => exact ordered.storeHead point

theorem step (ordered : q.Ordered maxCount) (event : Event T) :
    (q.step maxCount movedFrom event).Ordered maxCount := by
  cases event with
  | enqueue value =>
      cases point : q.producer with
      | idle =>
          simp only [OneToOneQueue.step, point]
          exact ordered.withProducer (.testShutdown value) trivial (by simp [point])
      | testShutdown | loadTail | loadHead | write | storeTail =>
          simp only [OneToOneQueue.step, point]
          exact ordered
  | dequeue =>
      cases point : q.consumer with
      | idle =>
          simp only [OneToOneQueue.step, point]
          exact ordered.withConsumer .loadHead trivial (by simp [Taken, point])
      | loadHead | loadTail | move | clear | storeHead =>
          simp only [OneToOneQueue.step, point]
          exact ordered
  | produce => exact ordered.produce
  | consume => exact ordered.consume

theorem exhausted (ordered : q.Ordered maxCount) (refuses : q.DequeueRefuses maxCount movedFrom) :
    q.consumer = .loadTail q.ixHead ∧ q.held = 0 := by
  obtain ⟨calling, ended, same⟩ := refuses
  cases point : q.consumer with
  | idle => contradiction
  | loadHead => simp [OneToOneQueue.consume, point] at ended
  | loadTail ixH =>
      have consuming := ordered.consuming
      simp only [Consuming, point] at consuming
      subst consuming
      refine ⟨rfl, ?_⟩
      simp only [OneToOneQueue.consume, point, ordered.distance] at ended
      by_contra some
      rw [if_neg some] at ended
      cases ended
  | move ixH => simp [OneToOneQueue.consume, point] at ended
  | clear ixH ref => simp [OneToOneQueue.consume, point] at ended
  | storeHead ixH ref => simp [OneToOneQueue.consume, point] at same

theorem fifo (ordered : q.Ordered maxCount) : q.Fifo maxCount movedFrom where
  order := ordered.order
  inHand := fun _ _ => ordered.inHand
  free := fun _ _ => ordered.free
  indices := fun _ => ordered.indices
  capacity := by
    have room := ordered.room
    refine ⟨?_, ordered.distance⟩
    unfold held
    omega
  full := ordered.full
  empty := ordered.exhausted

theorem empty : (OneToOneQueue.empty : OneToOneQueue T).Ordered maxCount where
  running := rfl
  order := List.prefix_rfl
  room := Nat.zero_le _
  head := rfl
  tail := rfl
  kept := by simp [OneToOneQueue.empty]
  stored := by simp [OneToOneQueue.empty]
  occupied := by simp [OneToOneQueue.empty]
  producing := trivial
  consuming := trivial

end Ordered

/-- Every interleaving of the steps of the two threads leaves a queue of one order. -/
theorem always_fifo [Inhabited T] (maxCount : ℕ) (movedFrom : T → T) (events : List (Event T)) :
    Always (step maxCount movedFrom) (fun q => q.Fifo maxCount movedFrom) empty events := by
  have ordered : Always (step maxCount movedFrom) (fun q => q.Ordered maxCount) empty events :=
    always_of_invariant (fun _ event _ ordered => Ordered.step ordered event) Ordered.empty
      (along_of_each (fun _ _ => trivial) _ _)
  exact ordered.mono fun _ => Ordered.fifo

end OneToOneQueue

end SpotGridBot.Utils
