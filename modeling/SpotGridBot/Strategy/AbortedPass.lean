import SpotGridBot.Strategy.FullHedges
import SpotGridBot.Strategy.Storage

namespace SpotGridBot.Strategy
open Utils SpotGridBot.Core Runs

namespace GridStrategy

def allAnswered : List Bool → List Reply → Bool
  | [], _ => true
  | _ :: calls, replies =>
      !(replies.head?.getD .lost).throws && allAnswered calls replies.tail

def abortsSafely : List Bool → List Reply → Bool
  | [], _ => true
  | full :: calls, replies =>
      let reply := replies.head?.getD .lost
      reply.throws ||
        if full && reply.acceptedId.isSome then allAnswered calls replies.tail
        else abortsSafely calls replies.tail

section Replies
variable {full : Bool} {calls : List Bool} {replies : List Reply}

theorem allAnswered_cons (answered : allAnswered (full :: calls) replies = true) :
    (replies.head?.getD .lost).throws = false ∧ allAnswered calls replies.tail = true := by
  simpa [allAnswered] using answered

theorem abortsSafely_refused (answers : (replies.head?.getD .lost).throws = false)
    (refused : (replies.head?.getD .lost).acceptedId = none) :
    abortsSafely (full :: calls) replies = abortsSafely calls replies.tail := by
  simp [abortsSafely, answers, refused]

theorem abortsSafely_accepted {newId : OrderId}
    (answers : (replies.head?.getD .lost).throws = false)
    (accepted : (replies.head?.getD .lost).acceptedId = some newId) :
    abortsSafely (full :: calls) replies =
      if full then allAnswered calls replies.tail else abortsSafely calls replies.tail := by
  simp [abortsSafely, answers, accepted]

end Replies

section Midway
variable {α : Type} [Zero α] [One α] [Sub α] [Mul α] [LE α] [LT α] [DecidableLE α] [DecidableLT α]
  [Doubles α] {s s' : GridStrategy α} (cfg : GridConfig α)

structure Midway (rest : List OrderId) (s : GridStrategy α) : Prop where
  kept : s.Kept
  fresh : FreshIds s.orderManager s.replies
  active : rest ⊆ s.activeOrders
  distinct : (rest.filter (· ≠ "")).Nodup
  unmarked : ∀ i ∈ rest, i ≠ "" → i ∉ s.toRemove
  safe : (s.Unhedged ∧ abortsSafely (rest.filterMap (placement cfg s)) s.replies = true) ∨
    allAnswered (rest.filterMap (placement cfg s)) s.replies = true

variable {cfg}

theorem Midway.others {orderId : OrderId} {rest : List OrderId}
    (midway : Midway cfg (orderId :: rest) s) {i : OrderId} (member : i ∈ rest) :
    i ≠ orderId ∨ s.orderManager.orders i = none := by
  by_cases empty : i = ""
  · exact .inr (empty ▸ midway.kept.noEmpty)
  · refine .inl ?_
    rintro rfl
    have distinct := midway.distinct
    rw [List.filter_cons_of_pos (by simpa using empty)] at distinct
    exact (List.nodup_cons.mp distinct).1 (List.mem_filter.mpr ⟨member, by simpa using empty⟩)

theorem Midway.next {orderId : OrderId} {rest : List OrderId}
    (midway : Midway cfg (orderId :: rest) s) (kept : s'.Kept)
    (fresh : FreshIds s'.orderManager s'.replies) (active : s.activeOrders ⊆ s'.activeOrders)
    (marks : s'.toRemove = s.toRemove ∨ s'.toRemove = s.toRemove ++ [orderId])
    (steady : ∀ i ∈ rest, placement cfg s' i = placement cfg s i)
    (safe : (s'.Unhedged ∧ abortsSafely (rest.filterMap (placement cfg s)) s'.replies = true) ∨
      allAnswered (rest.filterMap (placement cfg s)) s'.replies = true) :
    Midway cfg rest s' where
  kept := kept
  fresh := fresh
  active i member := active (midway.active (List.mem_cons_of_mem orderId member))
  distinct := midway.distinct.sublist ((List.sublist_cons_self orderId rest).filter _)
  unmarked i member nonempty marked := by
    have before := midway.unmarked i (List.mem_cons_of_mem orderId member) nonempty
    rcases marks with same | marks
    · exact before (same ▸ marked)
    · rw [marks, List.mem_append, List.mem_singleton] at marked
      rcases marked with old | rfl
      · exact before old
      · have unknown := (midway.others member).resolve_left (fun different => different rfl)
        have cached := midway.kept.tracked i (midway.active List.mem_cons_self) nonempty
        simp [unknown] at cached
  safe := by
    rwa [List.filterMap_congr steady]

theorem Midway.visit_quiet {orderId : OrderId} {rest : List OrderId}
    (midway : Midway cfg (orderId :: rest) s) (places : placement cfg s orderId = none)
    (quiet : Quiet orderId s s') : Midway cfg rest s' := by
  have safe := midway.safe
  rw [List.filterMap_cons_none places] at safe
  apply midway.next (midway.kept.quiet quiet)
  · rw [quiet.orderManager, quiet.replies]
    exact midway.fresh
  · rw [quiet.active]
    exact List.Subset.refl _
  · exact quiet.marks
  · exact fun i member => placement_quiet cfg quiet (midway.others member)
  · rw [quiet.replies]
    exact safe.imp_left fun ⟨clean, aborts⟩ => ⟨clean.quiet quiet, aborts⟩

structure Placing (cfg : GridConfig α) (orderId : OrderId) (rest : List OrderId) (full : Bool)
    (s s₁ : GridStrategy α) : Prop where
  midway : Midway cfg (orderId :: rest) s
  places : placement cfg s orderId = some full
  quiet : Quiet orderId s s₁
  unmarked : s₁.toRemove = s.toRemove

namespace Placing
variable {orderId : OrderId} {rest : List OrderId} {full : Bool} {s₁ : GridStrategy α}
  {cause : Cause} {details : OrderDetails α}

def finish (orderId : OrderId) (full : Bool) (s : GridStrategy α) : GridStrategy α :=
  { s with toRemove := s.toRemove ++ if full then [orderId] else [] }

theorem kept (placing : Placing cfg orderId rest full s s₁) : s₁.Kept :=
  placing.midway.kept.quiet placing.quiet

theorem fresh (placing : Placing cfg orderId rest full s s₁) :
    FreshIds s₁.orderManager s₁.replies := by
  rw [placing.quiet.orderManager, placing.quiet.replies]
  exact placing.midway.fresh

theorem active (placing : Placing cfg orderId rest full s s₁) :
    s.activeOrders ⊆ s₁.activeOrders := by
  rw [placing.quiet.active]
  exact List.Subset.refl _

theorem steady (placing : Placing cfg orderId rest full s s₁) {i : OrderId} (member : i ∈ rest) :
    placement cfg s₁ i = placement cfg s i :=
  placement_quiet cfg placing.quiet (placing.midway.others member)

theorem marks (placing : Placing cfg orderId rest full s s₁) :
    s₁.toRemove ++ (if full then [orderId] else []) = s.toRemove ∨
      s₁.toRemove ++ (if full then [orderId] else []) = s.toRemove ++ [orderId] := by
  rw [placing.unmarked]
  cases full with
  | false => exact .inl (List.append_nil _)
  | true => exact .inr rfl

theorem safe (placing : Placing cfg orderId rest full s s₁) :
    (s₁.Unhedged ∧ abortsSafely (full :: rest.filterMap (placement cfg s)) s₁.replies = true) ∨
      allAnswered (full :: rest.filterMap (placement cfg s)) s₁.replies = true := by
  have safe := placing.midway.safe
  rw [List.filterMap_cons_some placing.places, ← placing.quiet.replies] at safe
  exact safe.imp_left fun ⟨clean, aborts⟩ => ⟨clean.quiet placing.quiet, aborts⟩

theorem cached (placing : Placing cfg orderId rest full s s₁) :
    (s₁.orderManager.orders orderId).isSome := by
  rw [placing.quiet.orderManager]
  by_contra unknown
  simp only [Bool.not_eq_true, Option.isSome_eq_false_iff, Option.isNone_iff_eq_none] at unknown
  have places := placing.places
  simp [placement, unknown] at places

theorem unhedged (placing : Placing cfg orderId rest full s s₁) : s₁.fullHedges orderId = 0 := by
  have known : orderId ≠ "" := by
    rintro rfl
    have cached := placing.cached
    simp [placing.kept.noEmpty] at cached
  apply placing.kept.unhedged orderId (placing.active (placing.midway.active List.mem_cons_self))
  rw [placing.unmarked]
  exact placing.midway.unmarked orderId List.mem_cons_self known

theorem aborted (placing : Placing cfg orderId rest full s s₁)
    (throws : s₁.nextReply.throws = true) :
    (s₁.abort cause details).Kept ∧ (s₁.abort cause details).Unhedged := by
  refine ⟨placing.kept.abort, ?_⟩
  rcases placing.safe with ⟨clean, -⟩ | answered
  · intro i active
    rw [fullHedges_abort]
    exact clean i active
  · have answers := (allAnswered_cons answered).1
    exact absurd (throws.symm.trans answers) (by decide)

theorem refused (placing : Placing cfg orderId rest full s s₁)
    (answers : s₁.nextReply.throws = false) (none : s₁.nextReply.acceptedId = none) :
    Midway cfg rest (finish orderId full (s₁.refuse cause details)) := by
  apply placing.midway.next _ placing.fresh.tail _ placing.marks
  · intro i member
    exact (placement_refuse cfg placing.kept.noEmpty _ _ i).trans (placing.steady member)
  · rcases placing.safe with ⟨clean, aborts⟩ | answered
    · rw [abortsSafely_refused answers none] at aborts
      exact .inl ⟨clean.refuse placing.kept, aborts⟩
    · exact .inr (allAnswered_cons answered).2
  · exact placing.kept.refuse.frame rfl rfl (by simp [finish]) fun _ => rfl
  · exact List.Subset.trans placing.active (by simp [finish])

theorem accepted (placing : Placing cfg orderId rest full s s₁) {newId : OrderId}
    (own : ∀ i, cause = .filled i ↔ i = orderId ∧ full = true)
    (answers : s₁.nextReply.throws = false) (accepts : s₁.nextReply.acceptedId = some newId) :
    Midway cfg rest (finish orderId full (s₁.accept cause newId details)) := by
  have kept := placing.kept
  obtain ⟨nonempty, absent, freshNext⟩ := placing.fresh.next accepts
  have first : ∀ i, cause = .filled i → i ∈ (if full then [orderId] else []) ∧
      s₁.fullHedges i = 0 ∧ (s₁.orderManager.orders i).isSome := by
    intro i filled
    obtain ⟨rfl, rfl⟩ := (own i).mp filled
    exact ⟨List.mem_singleton_self i, placing.unhedged, placing.cached⟩
  apply placing.midway.next (kept.accept nonempty absent _ first) (freshNext _) _ placing.marks
  · intro i member
    have other : i ≠ newId := by
      rintro rfl
      have tracked := placing.active (placing.midway.active (List.mem_cons_of_mem orderId member))
      simpa [absent] using kept.tracked i tracked nonempty
    exact (placement_accept cfg other _ _).trans (placing.steady member)
  · rcases placing.safe with ⟨clean, aborts⟩ | answered
    · rw [abortsSafely_accepted answers accepts] at aborts
      cases full with
      | false => exact .inl ⟨clean.accept kept nonempty absent (by simp [own]), aborts⟩
      | true => exact .inr aborts
    · exact .inr (allAnswered_cons answered).2
  · exact List.Subset.trans placing.active (by simp)

end Placing

variable [Add α]

theorem Midway.visit {orderId : OrderId} {rest : List OrderId}
    (midway : Midway cfg (orderId :: rest) s) :
    (∃ s', s.visit cfg orderId = .done s' ∧ Midway cfg rest s') ∨
    (∃ s', s.visit cfg orderId = .thrown s' ∧ s'.Kept ∧ s'.Unhedged) := by
  cases places : placement cfg s orderId with
  | none =>
      obtain ⟨s', visited, quiet⟩ := GridStrategy.visit_quiet cfg places
      exact .inl ⟨s', visited, midway.visit_quiet places quiet⟩
  | some full =>
      obtain ⟨cause, side, price, qty, s₁, quiet, unmarked, own, visited⟩ :=
        visit_places cfg places
      have placing : Placing cfg orderId rest full s s₁ := ⟨midway, places, quiet, unmarked⟩
      rcases s₁.placeAndTrack_cases cause side price qty with
        ⟨throws, -, threw⟩ | ⟨answers, refused, refuses⟩ | ⟨newId, answers, accepted, accepts⟩
      · exact .inr ⟨_, by rw [visited, threw]; rfl, placing.aborted throws⟩
      · exact .inl ⟨_, by rw [visited, refuses]; rfl, placing.refused answers refused⟩
      · exact .inl ⟨_, by rw [visited, accepts]; rfl, placing.accepted own answers accepted⟩

theorem Kept.pass (kept : s.Kept) (clean : s.Unhedged)
    (fresh : FreshIds s.orderManager s.replies)
    (safe : abortsSafely (s.activeOrders.filterMap (placement cfg s)) s.replies = true) :
    (s.checkFilledOrders cfg).state.Kept ∧ (s.checkFilledOrders cfg).state.Unhedged := by
  have opened : Midway cfg s.activeOrders { s with toRemove := [] } :=
    { kept := ⟨kept.noEmpty, kept.nodup, kept.tracked, kept.hedged, kept.once,
        fun i active _ => clean i active⟩
      fresh := fresh
      active := List.Subset.refl _
      distinct := kept.nodup
      unmarked := by simp
      safe := .inl ⟨clean, safe⟩ }
  rcases Outcome.forEach_rule (Midway cfg) (fun s => s.Kept ∧ s.Unhedged)
    (fun _ _ _ midway => midway.visit) opened with ⟨s', visited, midway⟩ | ⟨s', threw, failed⟩
  · simp only [checkFilledOrders, visited, Outcome.bind_done, Outcome.state_done]
    exact midway.kept.removeAll
  · simp only [checkFilledOrders, threw, Outcome.bind_thrown, Outcome.state_thrown]
    exact failed

end Midway

end GridStrategy

open GridStrategy

section Runs
variable {α : Type} [Zero α] [One α] [NatCast α] [Add α] [Sub α] [Mul α] [LE α] [LT α]
  [DecidableLE α] [DecidableLT α] [Doubles α]

def AbortsSafely (cfg : GridConfig α) (s : GridStrategy α) : Event α → Prop
  | .checkFilledOrders replies =>
      abortsSafely (s.activeOrders.filterMap (placement cfg s)) replies = true
  | _ => True

def HedgedAtMostOnce {α : Type} (s : GridStrategy α) : Prop := ∀ orderId, s.fullHedges orderId ≤ 1

instance (cfg : GridConfig α) (s : GridStrategy α) : (e : Event α) → Decidable (AbortsSafely cfg s e)
  | .checkFilledOrders _ => inferInstanceAs (Decidable (_ = _))
  | .start _ => .isTrue trivial
  | .updateOrder _ _ _ => .isTrue trivial
  | .syncOrder _ _ _ _ _ _ => .isTrue trivial
  | .setBalance _ _ => .isTrue trivial

theorem kept_step (cfg : GridConfig α) (s : GridStrategy α) (e : Event α)
    (permitted : Permitted s e ∧ AbortsSafely cfg s e) (holds : s.Kept ∧ s.Unhedged) :
    (step cfg s e).Kept ∧ (step cfg s e).Unhedged := by
  obtain ⟨kept, clean⟩ := holds
  have supplied : ∀ replies, GridStrategy.Kept { s with replies := replies } := fun _ =>
    ⟨kept.noEmpty, kept.nodup, kept.tracked, kept.hedged, kept.once, kept.unhedged⟩
  cases e with
  | start replies => exact (supplied replies).start clean permitted.1
  | checkFilledOrders replies => exact (supplied replies).pass clean permitted.1 permitted.2
  | updateOrder orderId status filled =>
      obtain ⟨reported, clean⟩ := kept.report clean orderId status filled
      refine ⟨reported.cache ?_ fun i cached => ?_, clean⟩
      · exact s.orderManager.updateOrder_unknown orderId "" status filled kept.noEmpty
      · rw [GridStrategy.report_orderManager] at cached
        obtain ⟨order, present⟩ := Option.isSome_iff_exists.mp cached
        simp [s.orderManager.updateOrder_cached orderId i status filled order present]
  | syncOrder orderId side price quantity status filled =>
      obtain ⟨reported, clean⟩ := kept.report clean orderId status filled
      refine ⟨reported.cache ?_ fun i cached => ?_, clean⟩
      · rw [s.orderManager.syncOrder_unknown orderId "" status filled kept.noEmpty,
          if_neg (Ne.symm permitted.1)]
      · rw [GridStrategy.report_orderManager] at cached
        obtain ⟨order, present⟩ := Option.isSome_iff_exists.mp cached
        simp [s.orderManager.syncOrder_cached orderId i status filled order present]
  | setBalance currency amount => exact ⟨kept.cache kept.noEmpty fun _ cached => cached, clean⟩

theorem hedgedAtMostOnce_of_abortsSafely (cfg : GridConfig α) (m : OrderManager α)
    (events : List (Event α)) (noEmpty : m.orders "" = none)
    (permitted : Along (step cfg) Permitted { orderManager := m } events)
    (safely : Along (step cfg) (AbortsSafely cfg) { orderManager := m } events) :
    Always (step cfg) HedgedAtMostOnce { orderManager := m } events := by
  have initial : GridStrategy.Kept { orderManager := m } ∧
      GridStrategy.Unhedged { orderManager := m } :=
    ⟨⟨noEmpty, List.nodup_nil, by simp, by simp [fullHedges], by simp [fullHedges], by simp⟩,
      by simp [Unhedged]⟩
  exact (always_of_invariant (kept_step cfg) initial (permitted.and safely)).mono
    fun s holds => holds.1.once

/-- No order is hedged whole twice in a run whose hedges find room and whose aborted passes had
placed no such hedge yet. -/
theorem stored_hedgedAtMostOnce (spare : ℕ → ℕ) (cfg : GridConfig α) (m : OrderManager α)
    (capacity : ℕ) (events : List (Event α)) (noEmpty : m.orders "" = none)
    (permitted : Along (Stored.step spare cfg) (Stored.Permits Permitted)
      (some ⟨{ orderManager := m }, capacity⟩) events)
    (safely : Along (Stored.step spare cfg) (Stored.Meets cfg (AbortsSafely cfg))
      (some ⟨{ orderManager := m }, capacity⟩) events) :
    Always (Stored.step spare cfg) (Stored.Defined HedgedAtMostOnce)
      (some ⟨{ orderManager := m }, capacity⟩) events :=
  Stored.always_defined_of_meets spare cfg (Nat.zero_le capacity) permitted
    (hedgedAtMostOnce_of_abortsSafely cfg m events noEmpty) safely

end Runs

def fiveLevels : GridConfig := { ladder 10 with levelsBelow := 3, levelsAbove := 2 }

def fivePlaced : Event :=
  .start [.accepted "1", .accepted "2", .accepted "3", .accepted "4", .accepted "5"]

def secondThrows : List Event := [
  fivePlaced,
  .setBalance Currency.usd 100000,
  .updateOrder "1" .filled 10,
  .updateOrder "4" .filled 10,
  -- The answer to the second placement is not JSON.
  .checkFilledOrders [.accepted "6", .answer none],
  .checkFilledOrders [.accepted "7", .accepted "8"]]

theorem secondThrows_hedgesTwice :
    Along (Stored.step Growing.doubling fiveLevels) (Stored.Permits Permitted)
      (some ⟨{ orderManager := emptyManager }, 0⟩) secondThrows ∧
    ((run (Stored.step Growing.doubling fiveLevels)
      (some ⟨{ orderManager := emptyManager }, 0⟩) secondThrows).map
        fun r => r.strategy.fullHedges "1") = some 2 ∧
    ¬ Always (Stored.step Growing.doubling fiveLevels) (Stored.Defined HedgedAtMostOnce)
      (some ⟨{ orderManager := emptyManager }, 0⟩) secondThrows := by
  have twice : ((run (Stored.step Growing.doubling fiveLevels)
      (some ⟨{ orderManager := emptyManager }, 0⟩) secondThrows).map
        fun r => r.strategy.fullHedges "1") = some 2 := by decide +kernel
  refine ⟨by decide +kernel, twice, fun always => ?_⟩
  obtain ⟨r, last, once⟩ := always.last
  rw [Option.mem_def.mp last] at twice
  have hedges : r.strategy.fullHedges "1" = 2 := Option.some.inj twice
  have bound := once "1"
  omega

def firstThrows : List Event := [
  fivePlaced,
  .setBalance Currency.usd 100000,
  .updateOrder "1" .filled 10,
  .updateOrder "4" .filled 10,
  .checkFilledOrders [.answer none],
  .checkFilledOrders [.accepted "7", .accepted "8"]]

theorem firstThrows_hedgesOnce :
    Always (Stored.step Growing.doubling fiveLevels) (Stored.Defined HedgedAtMostOnce)
      (some ⟨{ orderManager := emptyManager }, 0⟩) firstThrows :=
  stored_hedgedAtMostOnce Growing.doubling fiveLevels emptyManager 0 firstThrows rfl
    (by decide +kernel) (by decide +kernel)

end SpotGridBot.Strategy
