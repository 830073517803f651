import SpotGridBot.Strategy.AbortedPass
import SpotGridBot.Strategy.Account
import SpotGridBot.Strategy.Storage

namespace SpotGridBot.Strategy
open Utils SpotGridBot.Core Runs

namespace GridStrategy

section Books
variable {α : Type} {s : GridStrategy α} {orderId : OrderId}

structure Tracking (s : GridStrategy α) : Prop where
  nodup : s.activeOrders.Nodup
  nonempty : "" ∉ s.activeOrders
  placed : ∀ i ∈ s.activeOrders, s.placed i = true
  details : ∀ i, (s.orderDetails i).isSome ↔ i ∈ s.activeOrders
  known : ∀ i, (s.knownFills i).isSome → i ∈ s.activeOrders

def Cached (s : GridStrategy α) : Prop := ∀ i ∈ s.activeOrders, (s.orderManager.orders i).isSome

def TracksCached (s : GridStrategy α) : Prop := s.Tracking ∧ s.Cached

def Refusal (reply : Reply) : Prop := reply.throws = false ∧ reply.acceptedId = none

instance (reply : Reply) : Decidable (Refusal reply) := inferInstanceAs (Decidable (_ ∧ _))

namespace Tracking

theorem setKnown (tracking : s.Tracking) (active : orderId ∈ s.activeOrders) (filled : α) :
    (s.setKnown orderId filled).Tracking :=
  { tracking with
    known := by
      intro i known
      by_cases here : i = orderId
      · exact here ▸ active
      · exact tracking.known i (by simpa [GridStrategy.setKnown, here] using known) }

theorem record (tracking : s.Tracking) {entry : Record α} (silent : ∀ i, entry.places i = false) :
    (s.record entry).Tracking :=
  { tracking with
    placed := fun i active => (placed_record (silent i)).trans (tracking.placed i active) }

theorem mark (tracking : s.Tracking) : (s.markForRemoval orderId).Tracking :=
  { tracking with placed := tracking.placed }

theorem supply (tracking : s.Tracking) (replies : List Reply) :
    Tracking { s with replies := replies } :=
  { tracking with placed := tracking.placed }

theorem abort (tracking : s.Tracking) (cause : Cause) (details : OrderDetails α) :
    (s.abort cause details).Tracking :=
  (tracking.supply _).record fun _ => rfl

theorem remove (tracking : s.Tracking) (orderId : OrderId) : (s.remove orderId).Tracking where
  nodup := tracking.nodup.filter _
  nonempty := fun active => tracking.nonempty (List.mem_of_mem_filter active)
  placed := by
    intro i active
    exact (placed_record rfl).trans (tracking.placed i (List.mem_of_mem_filter active))
  details := by
    intro i
    by_cases here : i = orderId
    · simp [GridStrategy.remove, here]
    · simpa [GridStrategy.remove, here] using tracking.details i
  known := by
    intro i known
    by_cases here : i = orderId
    · simp [GridStrategy.remove, here] at known
    · have active := tracking.known i (by simpa [GridStrategy.remove, here] using known)
      simpa [GridStrategy.remove, here] using active

theorem removeAll (tracking : s.Tracking) (orderIds : List OrderId) :
    (s.removeAll orderIds).Tracking := by
  induction orderIds generalizing s with
  | nil => exact tracking
  | cons orderId orderIds ih => exact ih (tracking.remove orderId)

end Tracking

structure Unrefused (s : GridStrategy α) : Prop where
  tracking : s.Tracking
  cached : s.Cached
  fresh : FreshIds s.orderManager s.replies
  answers : ∀ reply ∈ s.replies, ¬ Refusal reply

theorem not_refused (answers : ∀ reply ∈ s.replies, ¬ Refusal reply) : ¬ Refusal s.nextReply := by
  unfold nextReply
  cases supplied : s.replies with
  | nil => simp [Refusal, Reply.throws]
  | cons reply replies => exact answers reply (by simp [supplied])

def Slips (s : GridStrategy α) : Prop :=
  "" ∈ s.activeOrders ∨ ∃ reply ∈ s.replies, Refusal reply

theorem refusal_next {reply : Reply} (refusal : Refusal reply) (member : reply ∈ s.replies)
    (other : ¬ Refusal s.nextReply) : reply ∈ s.replies.tail := by
  unfold nextReply at other
  cases supplied : s.replies with
  | nil => simp [supplied] at member
  | cons first replies =>
      rw [supplied] at member other
      rcases List.mem_cons.mp member with rfl | later
      · exact absurd refusal other
      · exact later

theorem Slips.next (slips : s.Slips) (other : ¬ Refusal s.nextReply) {s' : GridStrategy α}
    (active : s.activeOrders ⊆ s'.activeOrders) (replies : s'.replies = s.replies.tail) :
    s'.Slips := by
  cases slips with
  | inl tracked => exact .inl (active tracked)
  | inr left =>
      obtain ⟨reply, member, refusal⟩ := left
      exact .inr ⟨reply, replies ▸ refusal_next refusal member other, refusal⟩

theorem removeAll_replies (orderIds : List OrderId) :
    (s.removeAll orderIds).replies = s.replies := by
  induction orderIds generalizing s with
  | nil => rfl
  | cons orderId orderIds ih => exact ih (s := s.remove orderId)

theorem tracking_report (tracking : s.Tracking) (cached : s.Cached) (orderId : OrderId)
    (status : OrderStatus) (filled : α) {m : OrderManager α}
    (kept : ∀ i order, s.orderManager.orders i = some order → (m.orders i).isSome) :
    TracksCached { s.report orderId status filled with orderManager := m } := by
  have reported : ∀ i ∈ s.activeOrders, (m.orders i).isSome := by
    intro i active
    obtain ⟨order, present⟩ := Option.isSome_iff_exists.mp (cached i active)
    exact kept i order present
  unfold GridStrategy.report
  cases s.orderManager.orders orderId with
  | none => exact ⟨{ tracking with placed := tracking.placed }, reported⟩
  | some order =>
      have recorded : (s.record (.report orderId status filled)).Tracking :=
        tracking.record fun _ => rfl
      exact ⟨{ recorded with placed := recorded.placed }, reported⟩

section Placements
variable [Zero α]

theorem Tracking.touchDetails (tracking : s.Tracking) (active : orderId ∈ s.activeOrders) :
    (s.touchDetails orderId).Tracking :=
  { tracking with
    details := by
      intro i
      by_cases here : i = orderId
      · simp [GridStrategy.touchDetails, here, active]
      · simpa [GridStrategy.touchDetails, here] using tracking.details i }

theorem Tracking.accept (tracking : s.Tracking) {newId : OrderId} (nonempty : newId ≠ "")
    (new : newId ∉ s.activeOrders) (cause : Cause) (details : OrderDetails α) :
    (s.accept cause newId details).Tracking where
  nodup := by
    apply List.nodup_append.mpr
    refine ⟨tracking.nodup, by simp, ?_⟩
    intro i active j same
    obtain rfl := List.mem_singleton.mp same
    intro same
    exact new (same ▸ active)
  nonempty := by
    intro active
    rcases List.mem_append.mp active with old | same
    · exact tracking.nonempty old
    · exact nonempty (List.mem_singleton.mp same).symm
  placed := by
    intro i active
    rw [placed_accept]
    rcases List.mem_append.mp active with old | same
    · simp [tracking.placed i old]
    · simp [List.mem_singleton.mp same]
  details := by
    intro i
    by_cases here : i = newId
    · simp [here]
    · simpa [here] using tracking.details i
  known := by
    intro i known
    exact List.mem_append_left [newId] (tracking.known i known)

theorem Cached.accept (cached : s.Cached) (cause : Cause) (newId : OrderId)
    (details : OrderDetails α) : (s.accept cause newId details).Cached := by
  intro i active
  by_cases here : i = newId
  · simp [here]
  · have old : i ∈ s.activeOrders := by
      simpa [here] using active
    exact s.accept_isSome cause newId details (cached i old)

theorem Unrefused.place (unrefused : s.Unrefused) (cause : Cause) (side : Side) (price qty : α) :
    (s.placeAndTrack cause side price qty).Ends Unrefused TracksCached := by
  apply place_rule
  · exact ⟨unrefused.tracking.abort cause _, unrefused.cached⟩
  · intro answers none
    exact absurd ⟨answers, none⟩ (not_refused unrefused.answers)
  · intro newId accepted
    obtain ⟨nonempty, absent, fresh⟩ := unrefused.fresh.next accepted
    have new : newId ∉ s.activeOrders := by
      intro active
      have cached := unrefused.cached newId active
      simp [absent] at cached
    exact
      { tracking := unrefused.tracking.accept nonempty new cause _
        cached := unrefused.cached.accept cause newId _
        fresh := fresh _
        answers := fun reply member => unrefused.answers reply (List.mem_of_mem_tail member) }

theorem Slips.place (slips : s.Slips) (cause : Cause) (side : Side) (price qty : α) :
    (s.placeAndTrack cause side price qty).Ends
      (fun s' => s'.Slips ∧ s'.toRemove = s.toRemove) Slips := by
  rcases s.placeAndTrack_cases cause side price qty with
    ⟨throws, -, ends⟩ | ⟨answers, none, ends⟩ | ⟨newId, -, accepted, ends⟩
  · rw [ends]
    exact slips.next (fun refusal => by simp [Refusal, throws] at refusal)
      (List.Subset.refl _) rfl
  · rw [ends]
    exact ⟨.inl (List.mem_append_right _ (List.mem_singleton_self "")), rfl⟩
  · rw [ends]
    exact ⟨slips.next (fun refusal => by simp [Refusal, accepted] at refusal)
      (List.subset_append_left _ _) rfl, rfl⟩

end Placements

section Start
variable [Zero α] [One α] [NatCast α] [Add α] [Sub α] [Mul α]

theorem Unrefused.start (unrefused : s.Unrefused) (cfg : GridConfig α) :
    (s.start cfg).Ends Unrefused TracksCached := by
  unfold GridStrategy.start
  refine (Outcome.forEach_ends (fun _ => Unrefused) ?_ unrefused).bind fun s kept =>
    Outcome.forEach_ends (fun _ => Unrefused) ?_ kept
  · exact fun i rest s kept => kept.place .grid .buy _ _
  · exact fun i rest s kept => kept.place .grid .sell _ _

theorem Slips.start (slips : s.Slips) (cfg : GridConfig α) : (s.start cfg).Ends Slips Slips := by
  unfold GridStrategy.start
  refine (Outcome.forEach_ends (fun _ => Slips) ?_ slips).bind fun s slips =>
    Outcome.forEach_ends (fun _ => Slips) ?_ slips
  · exact fun i rest s slips => (slips.place .grid .buy _ _).mono (fun _ => And.left) fun _ => id
  · exact fun i rest s slips => (slips.place .grid .sell _ _).mono (fun _ => And.left) fun _ => id

end Start

section Passes
variable [Zero α] [One α] [Add α] [Sub α] [Mul α] [LE α] [LT α] [DecidableLE α] [DecidableLT α]
  [Doubles α]

theorem Unrefused.visit (unrefused : s.Unrefused) (cfg : GridConfig α) (active : orderId ∈ s.activeOrders) :
    (s.visit cfg orderId).Ends (fun s' => s'.Unrefused ∧ s.activeOrders ⊆ s'.activeOrders)
      TracksCached := by
  apply visit_rule cfg (fun s' => s'.Unrefused ∧ s.activeOrders ⊆ s'.activeOrders)
  · rintro s' ⟨kept, grows⟩
    exact ⟨⟨kept.tracking.touchDetails (grows active), kept.cached, kept.fresh, kept.answers⟩,
      grows⟩
  · rintro s' filled ⟨kept, grows⟩
    exact ⟨⟨kept.tracking.setKnown (grows active) filled, kept.cached, kept.fresh, kept.answers⟩,
      grows⟩
  · rintro s' cause qty ⟨kept, grows⟩
    exact ⟨⟨kept.tracking.record fun _ => rfl, kept.cached, kept.fresh, kept.answers⟩, grows⟩
  · rintro s' ⟨kept, grows⟩
    exact ⟨⟨kept.tracking.mark, kept.cached, kept.fresh, kept.answers⟩, grows⟩
  · rintro s' cause side price qty ⟨kept, grows⟩
    have placed := kept.place cause side price qty
    rcases s'.placeAndTrack_cases cause side price qty with
      ⟨-, -, ends⟩ | ⟨-, -, ends⟩ | ⟨newId, -, -, ends⟩
    · rw [ends] at placed ⊢
      exact placed
    · rw [ends] at placed ⊢
      exact ⟨placed, List.Subset.trans grows (List.subset_append_left _ _)⟩
    · rw [ends] at placed ⊢
      exact ⟨placed, List.Subset.trans grows (List.subset_append_left _ _)⟩
  · exact ⟨unrefused, List.Subset.refl _⟩

theorem Unrefused.pass (unrefused : s.Unrefused) (cfg : GridConfig α) :
    (s.checkFilledOrders cfg).Ends TracksCached TracksCached := by
  have opened : Unrefused { s with toRemove := [] } :=
    ⟨{ unrefused.tracking with placed := unrefused.tracking.placed }, unrefused.cached,
      unrefused.fresh, unrefused.answers⟩
  refine (Outcome.forEach_ends (fun rest s => s.Unrefused ∧ rest ⊆ s.activeOrders) ?_
    ⟨opened, List.Subset.refl _⟩).bind ?_
  · intro orderId rest s ⟨kept, active⟩
    obtain ⟨here, later⟩ := List.cons_subset.mp active
    apply (kept.visit cfg here).mono
    · exact fun s' ⟨kept, grows⟩ => ⟨kept, List.Subset.trans later grows⟩
    · exact fun s' failed => failed
  · rintro s ⟨kept, -⟩
    have removed := kept.tracking.removeAll s.toRemove
    refine ⟨{ removed with placed := removed.placed }, fun i active => ?_⟩
    obtain ⟨orderManager, remaining, -⟩ := removeAll_frame (s := s) s.toRemove
    simp only [remaining] at active
    simp only [orderManager]
    exact kept.cached i (List.mem_of_mem_filter active)

theorem Slips.visit (slips : s.Slips) (unmarked : "" ∉ s.toRemove) (cfg : GridConfig α)
    (other : "" ≠ orderId) :
    (s.visit cfg orderId).Ends (fun s => s.Slips ∧ "" ∉ s.toRemove) Slips := by
  apply visit_rule cfg fun s => s.Slips ∧ "" ∉ s.toRemove
  · exact fun s slips => slips
  · exact fun s filled slips => slips
  · exact fun s cause qty slips => slips
  · exact fun s slips => ⟨slips.1, by simp [markForRemoval, slips.2, other]⟩
  · intro s cause side price qty slips
    apply (slips.1.place cause side price qty).mono
    · exact fun s' placed => ⟨placed.1, placed.2 ▸ slips.2⟩
    · exact fun s' failed => failed
  · exact ⟨slips, unmarked⟩

theorem Slips.pass (slips : s.Slips) (cfg : GridConfig α) (nonempty : "" ∉ s.activeOrders) :
    (s.checkFilledOrders cfg).Ends Slips Slips := by
  refine (Outcome.forEach_ends
    (fun rest s => (s.Slips ∧ "" ∉ s.toRemove) ∧ "" ∉ rest) ?_
    ⟨⟨slips, List.not_mem_nil⟩, nonempty⟩).bind ?_
  · intro orderId rest s ⟨slips, nonempty⟩
    obtain ⟨other, later⟩ := not_or.mp (mt List.mem_cons.mpr nonempty)
    exact (slips.1.visit slips.2 cfg other).mono (fun s slips => ⟨slips, later⟩) fun s => id
  · intro s ⟨⟨slips, unmarked⟩, _⟩
    obtain ⟨-, remaining, -⟩ := removeAll_frame (s := s) s.toRemove
    cases slips with
    | inl tracked =>
        apply Or.inl
        simpa [remaining, unmarked] using tracked
    | inr left =>
        apply Or.inr
        simpa [removeAll_replies] using left

end Passes

end Books

end GridStrategy

open GridStrategy

section Runs
variable {α : Type} [Zero α] [One α] [NatCast α] [Add α] [Sub α] [Mul α] [LE α] [LT α]
  [DecidableLE α] [DecidableLT α] [Doubles α]

def NoneRefused {α : Type} (_ : GridStrategy α) : Event α → Prop
  | .start replies => ∀ reply ∈ replies, ¬ Refusal reply
  | .checkFilledOrders replies => ∀ reply ∈ replies, ¬ Refusal reply
  | _ => True

def AllAsked (cfg : GridConfig α) (s : GridStrategy α) : Event α → Prop
  | .start replies => (step cfg s (.start replies)).replies = []
  | .checkFilledOrders replies => (step cfg s (.checkFilledOrders replies)).replies = []
  | _ => True

def NewIds {α : Type} (s : GridStrategy α) : Event α → Prop
  | .start replies => FreshIds s.orderManager replies
  | .checkFilledOrders replies => FreshIds s.orderManager replies
  | _ => True

instance {α : Type} (s : GridStrategy α) : (e : Event α) → Decidable (NoneRefused s e)
  | .start replies => inferInstanceAs (Decidable (∀ reply ∈ replies, _))
  | .checkFilledOrders replies => inferInstanceAs (Decidable (∀ reply ∈ replies, _))
  | .updateOrder _ _ _ => .isTrue trivial
  | .syncOrder _ _ _ _ _ _ => .isTrue trivial
  | .setBalance _ _ => .isTrue trivial

instance {α : Type} (s : GridStrategy α) : (e : Event α) → Decidable (NewIds s e)
  | .start _ => inferInstanceAs (Decidable (FreshIds _ _))
  | .checkFilledOrders _ => inferInstanceAs (Decidable (FreshIds _ _))
  | .updateOrder _ _ _ => .isTrue trivial
  | .syncOrder _ _ _ _ _ _ => .isTrue trivial
  | .setBalance _ _ => .isTrue trivial

section Step
variable {cfg : GridConfig α} {s : GridStrategy α}

theorem tracking_step (e : Event α) (allowed : NewIds s e ∧ NoneRefused s e)
    (holds : s.TracksCached) : (step cfg s e).TracksCached := by
  obtain ⟨tracking, cached⟩ := holds
  cases e with
  | start replies =>
      have supplied : Unrefused { s with replies := replies } :=
        ⟨tracking.supply replies, cached, allowed.1, allowed.2⟩
      exact ((supplied.start cfg).mono (fun s kept => ⟨kept.tracking, kept.cached⟩)
        fun s => id).state
  | checkFilledOrders replies =>
      have supplied : Unrefused { s with replies := replies } :=
        ⟨tracking.supply replies, cached, allowed.1, allowed.2⟩
      exact (supplied.pass cfg).state
  | updateOrder orderId status filled =>
      apply tracking_report tracking cached
      intro i order present
      simp [s.orderManager.updateOrder_cached orderId i status filled order present]
  | syncOrder orderId side price quantity status filled =>
      apply tracking_report tracking cached
      intro i order present
      simp [s.orderManager.syncOrder_cached orderId i status filled order present]
  | setBalance currency amount => exact ⟨{ tracking with placed := tracking.placed }, cached⟩

theorem refused_tracked (e : Event α) (asked : AllAsked cfg s e) (tracking : s.Tracking)
    (refused : ¬ NoneRefused s e) : ¬ (step cfg s e).Tracking := by
  have left : ∀ {s' : GridStrategy α}, s'.Slips → s'.replies = [] → "" ∈ s'.activeOrders := by
    intro s' slips none
    cases slips with
    | inl tracked => exact tracked
    | inr left => simp [none] at left
  intro after
  cases e with
  | start replies =>
      simp only [NoneRefused, not_forall, not_not] at refused
      obtain ⟨reply, member, refusal⟩ := refused
      have slips : Slips { s with replies := replies } := .inr ⟨reply, member, refusal⟩
      exact after.nonempty (left (slips.start cfg).state asked)
  | checkFilledOrders replies =>
      simp only [NoneRefused, not_forall, not_not] at refused
      obtain ⟨reply, member, refusal⟩ := refused
      have slips : Slips { s with replies := replies } := .inr ⟨reply, member, refusal⟩
      exact after.nonempty (left (slips.pass cfg tracking.nonempty).state asked)
  | updateOrder orderId status filled => exact refused trivial
  | syncOrder orderId side price quantity status filled => exact refused trivial
  | setBalance currency amount => exact refused trivial

end Step

theorem tracking_iff_noneRefused (cfg : GridConfig α) (m : OrderManager α) (events : List (Event α))
    (fresh : Along (step cfg) NewIds { orderManager := m } events) :
    (Along (step cfg) NoneRefused { orderManager := m } events →
      Always (step cfg) Tracking { orderManager := m } events) ∧
    (Along (step cfg) (AllAsked cfg) { orderManager := m } events →
      Always (step cfg) Tracking { orderManager := m } events →
      Along (step cfg) NoneRefused { orderManager := m } events) := by
  have initial : TracksCached { orderManager := m } :=
    ⟨⟨List.nodup_nil, List.not_mem_nil, by simp, by simp, by simp⟩, by simp [Cached]⟩
  constructor
  · intro accepted
    have kept := always_of_invariant (fun s e => tracking_step e) initial (fresh.and accepted)
    exact kept.mono fun s holds => holds.1
  · intro asked always
    refine (always_iff_along (P := Tracking) ?_ ?_ ?_ initial (fresh.and asked)).mp always
    · exact fun s e allowed holds accepted => tracking_step e ⟨allowed.1, accepted⟩ holds
    · exact fun s holds => holds.1
    · exact fun s e allowed holds => refused_tracked e allowed.2 holds.1

/-- The three containers agree at every point of a run that refuses no placement and whose hedges
find room in the vector; after a refused one, or one without room, they do not. -/
theorem stored_tracking_iff_noneRefused (spare : ℕ → ℕ) (cfg : GridConfig α) (m : OrderManager α)
    (capacity : ℕ) (events : List (Event α))
    (fresh : Along (Stored.step spare cfg) (Stored.Permits NewIds)
      (some ⟨{ orderManager := m }, capacity⟩) events) :
    (Along (Stored.step spare cfg) (Stored.Meets cfg NoneRefused)
        (some ⟨{ orderManager := m }, capacity⟩) events →
      Always (Stored.step spare cfg) (Stored.Defined Tracking)
        (some ⟨{ orderManager := m }, capacity⟩) events) ∧
    (Along (Stored.step spare cfg) (Stored.Permits (AllAsked cfg))
        (some ⟨{ orderManager := m }, capacity⟩) events →
      Always (Stored.step spare cfg) (Stored.Defined Tracking)
        (some ⟨{ orderManager := m }, capacity⟩) events →
      Along (Stored.step spare cfg) (Stored.Meets cfg NoneRefused)
        (some ⟨{ orderManager := m }, capacity⟩) events) := by
  have fits : ({ orderManager := m } : GridStrategy α).activeOrders.length ≤ capacity :=
    Nat.zero_le capacity
  constructor
  · apply Stored.always_defined_of_meets spare cfg fits fresh
    exact fun new => (tracking_iff_noneRefused cfg m events new).1
  · intro asked always
    obtain ⟨roomy, tracked⟩ := (Stored.always_iff spare cfg fits).mp always
    have new := Stored.along_permits spare cfg fits fresh roomy
    have allAsked := Stored.along_permits spare cfg fits asked roomy
    exact (Stored.along_meets_iff spare cfg fits).mpr
      ⟨roomy, (tracking_iff_noneRefused cfg m events new).2 allAsked tracked⟩

end Runs

def firstRefused : List Event := [.start [.unknownConnection], .checkFilledOrders []]

theorem firstRefused_tracksEmpty :
    Along (Stored.step Growing.doubling (ladder 10)) (Stored.Permits NewIds)
      (some ⟨{ orderManager := emptyManager }, 0⟩) firstRefused ∧
    ¬ Always (Stored.step Growing.doubling (ladder 10)) (Stored.Defined Tracking)
      (some ⟨{ orderManager := emptyManager }, 0⟩) firstRefused := by
  refine ⟨by decide +kernel, fun always => ?_⟩
  obtain ⟨r, last, tracking⟩ := always.last
  have tracked : "" ∈ ((run (Stored.step Growing.doubling (ladder 10))
      (some ⟨{ orderManager := emptyManager }, 0⟩) firstRefused).map
        fun r => r.strategy.activeOrders).getD [] := by decide +kernel
  rw [last] at tracked
  exact tracking.nonempty tracked

def threeLevels : List Event := [
  .start [.accepted "1", .accepted "2", .accepted "3"],
  .updateOrder "1" .partiallyFilled 4,
  .checkFilledOrders [.accepted "4"]]

theorem stored_tracking_threeLevels :
    Always (Stored.step Growing.doubling { ladder 10 with levelsBelow := 3 })
      (Stored.Defined Tracking) (some ⟨{ orderManager := emptyManager }, 0⟩) threeLevels :=
  (stored_tracking_iff_noneRefused Growing.doubling { ladder 10 with levelsBelow := 3 }
    emptyManager 0 threeLevels (by decide +kernel)).1 (by decide +kernel)

end SpotGridBot.Strategy
