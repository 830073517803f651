import SpotGridBot.Strategy.GridStrategy

namespace SpotGridBot.Strategy
open Utils SpotGridBot.Core Runs

section Answers
variable {α : Type}

def FreshIds (m : OrderManager α) (replies : List Reply) : Prop :=
  (replies.filterMap Reply.acceptedId).Nodup ∧
  ∀ newId ∈ replies.filterMap Reply.acceptedId, newId ≠ "" ∧ m.orders newId = none

instance (m : OrderManager α) (replies : List Reply) : Decidable (FreshIds m replies) :=
  inferInstanceAs (Decidable (_ ∧ _))

theorem FreshIds.tail {m : OrderManager α} {replies : List Reply} (fresh : FreshIds m replies) :
    FreshIds m replies.tail := by
  cases replies with
  | nil => exact fresh
  | cons reply rest =>
      have sub : (rest.filterMap Reply.acceptedId).Sublist
          ((reply :: rest).filterMap Reply.acceptedId) :=
        (List.sublist_cons_self reply rest).filterMap _
      exact ⟨fresh.1.sublist sub, fun newId member => fresh.2 newId (sub.subset member)⟩

theorem FreshIds.next {m : OrderManager α} {replies : List Reply} (fresh : FreshIds m replies)
    {newId : OrderId} (accepted : (replies.head?.getD .lost).acceptedId = some newId) :
    newId ≠ "" ∧ m.orders newId = none ∧
      ∀ order, FreshIds (m.store newId order) replies.tail := by
  cases replies with
  | nil => simp [Reply.acceptedId] at accepted
  | cons reply rest =>
      simp only [List.head?_cons, Option.getD_some] at accepted
      have ids : (reply :: rest).filterMap Reply.acceptedId =
          newId :: rest.filterMap Reply.acceptedId := by
        simp [accepted]
      obtain ⟨nodup, absent⟩ := fresh
      rw [ids] at nodup absent
      obtain ⟨unseen, nodup⟩ := List.nodup_cons.mp nodup
      obtain ⟨nonempty, uncached⟩ := absent newId List.mem_cons_self
      refine ⟨nonempty, uncached, fun order => ⟨nodup, fun later member => ?_⟩⟩
      obtain ⟨laterNonempty, laterUncached⟩ := absent later (List.mem_cons_of_mem newId member)
      have other : later ≠ newId := fun same => unseen (same ▸ member)
      exact ⟨laterNonempty, by simp [other, laterUncached]⟩

def Permitted (s : GridStrategy α) : Event α → Prop
  | .start replies => FreshIds s.orderManager replies
  | .checkFilledOrders replies => FreshIds s.orderManager replies
  | .syncOrder orderId _ _ _ _ _ => orderId ≠ ""
  | _ => True

instance (s : GridStrategy α) : (e : Event α) → Decidable (Permitted s e)
  | .start _ => inferInstanceAs (Decidable (FreshIds _ _))
  | .checkFilledOrders _ => inferInstanceAs (Decidable (FreshIds _ _))
  | .syncOrder _ _ _ _ _ _ => inferInstanceAs (Decidable (_ ≠ _))
  | .updateOrder _ _ _ => .isTrue trivial
  | .setBalance _ _ => .isTrue trivial

end Answers

namespace GridStrategy

section Books
variable {α : Type} {s s' : GridStrategy α} {orderId : OrderId}

structure SameBooks (s s' : GridStrategy α) : Prop where
  activeOrders : s'.activeOrders = s.activeOrders
  orderDetails : s'.orderDetails = s.orderDetails
  history : s'.history = s.history

def Detailed (s : GridStrategy α) : Prop := ∀ i ∈ s.activeOrders, (s.orderDetails i).isSome

theorem Detailed.orderDetails [Zero α] (detailed : s.Detailed) (active : orderId ∈ s.activeOrders) :
    s.orderDetails orderId = some (s.details orderId) := by
  obtain ⟨details, here⟩ := Option.isSome_iff_exists.mp (detailed orderId active)
  simp [GridStrategy.details, here]

theorem Detailed.touchDetails [Zero α] (detailed : s.Detailed) (active : orderId ∈ s.activeOrders) :
    s.touchDetails orderId = s := by
  have same : Function.update s.orderDetails orderId (some (s.details orderId)) =
      s.orderDetails := by
    rw [← detailed.orderDetails active, Function.update_eq_self]
  simp [GridStrategy.touchDetails, same]

theorem Detailed.track (detailed : s.Detailed) {newId : OrderId} {details : OrderDetails α}
    (active : s'.activeOrders = s.activeOrders ++ [newId])
    (tracked : s'.orderDetails = Function.update s.orderDetails newId (some details)) :
    s'.Detailed := by
  intro i member
  rw [tracked, Function.update_apply]
  split
  · rfl
  next other =>
    rw [active] at member
    rcases List.mem_append.mp member with old | new
    · exact detailed i old
    · exact absurd (List.mem_singleton.mp new) other

theorem Detailed.remove (detailed : s.Detailed) (orderId : OrderId) :
    (s.remove orderId).Detailed := by
  intro i member
  obtain ⟨member, other⟩ := List.mem_filter.mp member
  have different : i ≠ orderId := by simpa using other
  simpa [GridStrategy.remove, different] using detailed i member

theorem history_removeAll (s : GridStrategy α) (orderIds : List OrderId) :
    (s.removeAll orderIds).history = s.history ++
      orderIds.map fun i => .left i (s.orderManager.orders i) := by
  induction orderIds generalizing s with
  | nil => simp [removeAll]
  | cons orderId orderIds ih =>
      refine (ih (s.remove orderId)).trans ?_
      simp [remove, OrderManager.getOrderLocal]

theorem removeAll_books (s : GridStrategy α) (orderIds : List OrderId) :
    (s.removeAll orderIds).orderManager = s.orderManager ∧
    (s.removeAll orderIds).activeOrders = s.activeOrders.filter (· ∉ orderIds) := by
  induction orderIds generalizing s with
  | nil => simp [removeAll]
  | cons id ids ih =>
      obtain ⟨orderManager, active⟩ := ih (s.remove id)
      refine ⟨orderManager, active.trans ?_⟩
      simp [remove, List.filter_filter, Bool.and_comm]

end Books

section Place
variable {α : Type} [Zero α] {s : GridStrategy α}

theorem place_rule {Done Failed : GridStrategy α → Prop} {cause : Cause} {side : Side}
    {price qty : α} (aborts : Failed (s.abort cause ⟨side, price, qty⟩))
    (refuses : s.nextReply.throws = false → s.nextReply.acceptedId = none →
      Done (s.refuse cause ⟨side, price, qty⟩))
    (accepts : ∀ newId, s.nextReply.acceptedId = some newId →
      Done (s.accept cause newId ⟨side, price, qty⟩)) :
    (s.placeAndTrack cause side price qty).Ends Done Failed := by
  rcases s.placeAndTrack_cases cause side price qty with
    ⟨-, -, threw⟩ | ⟨answers, none, refused⟩ | ⟨newId, -, accepted, placed⟩
  · rw [threw]
    exact aborts
  · rw [refused]
    exact refuses answers none
  · rw [placed]
    exact accepts newId accepted

theorem history_placeAndTrack (s : GridStrategy α) (cause : Cause) (side : Side) (price qty : α) :
    ∃ result, (s.placeAndTrack cause side price qty).state.history =
      s.history ++ [.call cause side price qty result] := by
  rcases s.placeAndTrack_cases cause side price qty with
    ⟨-, -, ends⟩ | ⟨-, -, ends⟩ | ⟨newId, -, -, ends⟩
  · exact ⟨none, by rw [ends]; rfl⟩
  · exact ⟨some "", by rw [ends]; rfl⟩
  · exact ⟨some newId, by rw [ends]; rfl⟩

end Place

section Checks
variable {α : Type} [Zero α] [One α] [Add α] [Sub α] [Mul α] [LE α] [LT α] [DecidableLE α]
  [DecidableLT α] [Doubles α] (cfg : GridConfig α) (s : GridStrategy α) (orderId : OrderId)

def PassesFilled : Prop :=
  let details := s.details orderId
  if details.side = .buy then
    ¬ s.orderManager.getBalance cfg.instrument.baseCCY > Doubles.round cfg.maxPosition
  else ¬ Doubles.round (s.orderManager.getBalance cfg.instrument.quoteCCY) <
    details.price * (1 - cfg.stepPercent) * details.qty

def PassesPartial (delta : α) : Prop :=
  let details := s.details orderId
  if details.side = .buy then
    s.orderManager.getBalance cfg.instrument.baseCCY ≤ Doubles.round cfg.maxPosition
  else Doubles.round (s.orderManager.getBalance cfg.instrument.quoteCCY) ≥
    details.price * (1 - cfg.stepPercent) * delta

instance : Decidable (s.PassesFilled cfg orderId) :=
  inferInstanceAs (Decidable (if (s.details orderId).side = .buy then _ else _))

instance (delta : α) : Decidable (s.PassesPartial cfg orderId delta) :=
  inferInstanceAs (Decidable (if (s.details orderId).side = .buy then _ else _))

omit [LE α] [DecidableLE α] in
theorem hedgeFilled_cases :
    (s.PassesFilled cfg orderId ∧ s.hedgeFilled cfg orderId =
      (s.touchDetails orderId).placeAndTrack (.filled orderId) (hedgeSide (s.details orderId))
        (hedgePrice cfg (s.details orderId)) (s.details orderId).qty) ∨
    (¬ s.PassesFilled cfg orderId ∧ s.hedgeFilled cfg orderId = .done ((s.touchDetails orderId).record
      (.declined (.filled orderId) (s.details orderId).qty))) := by
  unfold hedgeFilled PassesFilled hedgeSide hedgePrice
  simp only [details_touchDetails]
  by_cases bought : (s.details orderId).side = .buy
  · simp only [bought, if_true]
    split
    next above => exact .inr ⟨not_not.mpr above, rfl⟩
    next within => exact .inl ⟨within, rfl⟩
  · simp only [bought, if_false]
    split
    next short => exact .inr ⟨not_not.mpr short, rfl⟩
    next covered => exact .inl ⟨covered, rfl⟩

omit [LT α] [DecidableLT α] in
theorem hedgePartial_cases (delta : α) :
    (s.PassesPartial cfg orderId delta ∧ s.hedgePartial cfg orderId delta =
      (s.touchDetails orderId).placeAndTrack (.partialFill orderId) (hedgeSide (s.details orderId))
        (hedgePrice cfg (s.details orderId)) delta) ∨
    (¬ s.PassesPartial cfg orderId delta ∧ s.hedgePartial cfg orderId delta =
      .done ((s.touchDetails orderId).record (.declined (.partialFill orderId) delta))) := by
  unfold hedgePartial PassesPartial hedgeSide hedgePrice
  simp only [details_touchDetails]
  by_cases bought : (s.details orderId).side = .buy
  · simp only [bought, if_true]
    split
    next within => exact .inl ⟨within, rfl⟩
    next above => exact .inr ⟨above, rfl⟩
  · simp only [bought, if_false]
    split
    next covered => exact .inl ⟨covered, rfl⟩
    next short => exact .inr ⟨short, rfl⟩

section VisitRule
variable {s orderId} {Done Failed : GridStrategy α → Prop}

omit [LE α] [DecidableLE α] in
theorem hedgeFilled_rule
    (declined : Done ((s.touchDetails orderId).record
      (.declined (.filled orderId) (s.details orderId).qty)))
    (placed : s.PassesFilled cfg orderId → ∀ side price,
      ((s.touchDetails orderId).placeAndTrack (.filled orderId) side price
        (s.details orderId).qty).Ends Done Failed) :
    (s.hedgeFilled cfg orderId).Ends Done Failed := by
  rcases s.hedgeFilled_cases cfg orderId with
    ⟨passes, places⟩ | ⟨-, declines⟩
  · rw [places]
    exact placed passes _ _
  · rw [declines]
    exact declined

omit [LT α] [DecidableLT α] in
theorem hedgePartial_rule {delta : α}
    (declined : Done ((s.touchDetails orderId).record (.declined (.partialFill orderId) delta)))
    (placed : s.PassesPartial cfg orderId delta → ∀ side price,
      ((s.touchDetails orderId).placeAndTrack (.partialFill orderId) side price delta).Ends Done
        Failed) :
    (s.hedgePartial cfg orderId delta).Ends Done Failed := by
  rcases s.hedgePartial_cases cfg orderId delta with
    ⟨passes, places⟩ | ⟨-, declines⟩
  · rw [places]
    exact placed passes _ _
  · rw [declines]
    exact declined

/-- A visit is made of five kinds of steps. -/
theorem visit_rule (Inv : GridStrategy α → Prop)
    (touch : ∀ s, Inv s → Inv (s.touchDetails orderId))
    (known : ∀ s filled, Inv s → Inv (s.setKnown orderId filled))
    (decline : ∀ s cause qty, Inv s → Inv (s.record (.declined cause qty)))
    (mark : ∀ s, Inv s → Inv (s.markForRemoval orderId))
    (place : ∀ s cause side price qty, Inv s →
      (s.placeAndTrack cause side price qty).Ends Inv Failed)
    (before : Inv s) : (s.visit cfg orderId).Ends Inv Failed := by
  cases cached : s.orderManager.orders orderId with
  | none =>
      rw [visit_unknown cfg cached]
      exact before
  | some order =>
      cases status : order.status with
      | new =>
          rw [visit_new cfg cached status]
          exact before
      | canceled =>
          rw [visit_dead cfg cached (.inl status)]
          exact mark s before
      | rejected =>
          rw [visit_dead cfg cached (.inr status)]
          exact mark s before
      | filled =>
          rw [visit_hedgeFilled cfg cached status]
          have touched := touch s before
          exact (hedgeFilled_rule cfg (decline _ _ _ touched)
            fun _ side price => place _ _ side price _ touched).bind fun s kept => mark s kept
      | partiallyFilled =>
          cases newFill : Doubles.isTrue (Doubles.round (order.filled - s.knownFilled orderId)) with
          | false =>
              rw [visit_seen cfg cached status newFill]
              exact known s _ before
          | true =>
              rw [visit_hedgePartial cfg cached status newFill]
              have touched := touch _ (known s order.filled before)
              exact hedgePartial_rule cfg (decline _ _ _ touched)
                fun _ side price => place _ _ side price _ touched

end VisitRule

theorem visit_history : ∃ entries, (s.visit cfg orderId).state.history = s.history ++ entries := by
  have ends : (s.visit cfg orderId).Ends (fun s' => s.history <+: s'.history)
      fun s' => s.history <+: s'.history := by
    apply visit_rule cfg fun s' => s.history <+: s'.history
    · exact fun s' grown => grown
    · exact fun s' filled grown => grown
    · exact fun s' cause qty grown => grown.trans (List.prefix_append _ _)
    · exact fun s' grown => grown
    · intro s' cause side price qty grown
      obtain ⟨result, called⟩ := history_placeAndTrack s' cause side price qty
      apply Outcome.ends_of_state
      rw [called]
      exact grown.trans (List.prefix_append _ _)
    · exact List.prefix_rfl
  obtain ⟨entries, appended⟩ := ends.state
  exact ⟨entries, appended.symm⟩

section Pass
variable {s} {Inv : GridStrategy α → Prop} (guard : GridStrategy α → OrderId → Prop)
  (frame : ∀ s s', SameBooks s s' → Inv s → Inv s')
  (visit : ∀ s orderId, guard s orderId → orderId ∈ s.activeOrders → Inv s →
    (s.visit cfg orderId).Ends (fun s' => Inv s' ∧ s.activeOrders ⊆ s'.activeOrders) Inv)
include visit

theorem visit_keeps (orderId : OrderId) (rest : List OrderId) (s : GridStrategy α)
    (kept : Inv s ∧ orderId :: rest ⊆ s.activeOrders) (guarded : guard s orderId) :
    (s.visit cfg orderId).Ends (fun s' => Inv s' ∧ rest ⊆ s'.activeOrders) Inv := by
  obtain ⟨here, later⟩ := List.cons_subset.mp kept.2
  apply (visit s orderId guarded here kept.1).mono
  · exact fun s' ends => ⟨ends.1, List.Subset.trans later ends.2⟩
  · exact fun s' failed => failed

include frame

theorem pass_keeps (remove : ∀ s orderId, Inv s → Inv (s.remove orderId)) (before : Inv s)
    (guarded : ∀ v ∈ s.visits cfg, guard v.1 v.2) : Inv (s.checkFilledOrders cfg).state := by
  have removed : ∀ (orderIds : List OrderId) (s : GridStrategy α), Inv s →
      Inv (s.removeAll orderIds) := by
    intro orderIds
    induction orderIds with
    | nil => exact fun s kept => kept
    | cons orderId orderIds ih => exact fun s kept => ih _ (remove s orderId kept)
  have opened : Inv { s with toRemove := [] } := frame s _ ⟨rfl, rfl, rfl⟩ before
  have visited := Outcome.forEach_guarded (fun rest s' => Inv s' ∧ rest ⊆ s'.activeOrders) guard
    (visit_keeps cfg guard visit) ⟨opened, List.Subset.refl s.activeOrders⟩ guarded
  unfold checkFilledOrders
  cases ran : Outcome.forEach (GridStrategy.visit cfg) { s with toRemove := [] } s.activeOrders with
  | done s' =>
      rw [ran] at visited
      have kept := removed s'.toRemove s' visited.1
      exact frame (s'.removeAll s'.toRemove) _ ⟨rfl, rfl, rfl⟩ kept
  | thrown s' =>
      rw [ran] at visited
      exact visited

theorem pass_breaks {P : List (Record α) → Prop}
    (grows : ∀ history entries, P (history ++ entries) → P history)
    (breaks : ∀ s orderId, ¬ guard s orderId → orderId ∈ s.activeOrders → Inv s →
      ¬ P (s.visit cfg orderId).state.history)
    (before : Inv s) (unguarded : ¬ ∀ v ∈ s.visits cfg, guard v.1 v.2) :
    ¬ P (s.checkFilledOrders cfg).state.history := by
  have opened : Inv { s with toRemove := [] } := frame s _ ⟨rfl, rfl, rfl⟩ before
  have broken := Outcome.forEach_unguarded (fun rest s' => Inv s' ∧ rest ⊆ s'.activeOrders) guard
    (P := fun s => P s.history) (visit_keeps cfg guard visit)
    (fun orderId rest s kept unguarded =>
      breaks s orderId unguarded (kept.2 List.mem_cons_self) kept.1)
    (fun s orderId broken holds => by
      obtain ⟨entries, appended⟩ := s.visit_history cfg orderId
      exact broken (grows s.history entries (appended ▸ holds)))
    ⟨opened, List.Subset.refl s.activeOrders⟩ unguarded
  unfold checkFilledOrders
  cases ran : Outcome.forEach (GridStrategy.visit cfg) { s with toRemove := [] } s.activeOrders with
  | done s' =>
      rw [ran] at broken
      intro holds
      apply broken
      apply grows s'.history
      rw [← history_removeAll s' s'.toRemove]
      exact holds
  | thrown s' =>
      rw [ran] at broken
      exact broken

end Pass

end Checks

section Start
variable {α : Type} [Zero α] [One α] [NatCast α] [Add α] [Sub α] [Mul α] (cfg : GridConfig α)
  {s : GridStrategy α} {Inv : GridStrategy α → Prop}

theorem start_rule
    (below : ∀ s (i : ℕ), i < cfg.levelsBelow.toNat → Inv s → (s.placeAndTrack .grid .buy
      (cfg.basePrice * (1 - cfg.stepPercent * ((i : α) + 1))) cfg.percentOrderQty).Ends Inv Inv)
    (above : ∀ s (i : ℕ), i < cfg.levelsAbove.toNat → Inv s → (s.placeAndTrack .grid .sell
      (cfg.basePrice * (1 + cfg.stepPercent * ((i : α) + 1))) cfg.percentOrderQty).Ends Inv Inv)
    (before : Inv s) : Inv (s.start cfg).state := by
  have level : ∀ {n : ℕ} {i : α} {rest : List α},
      i :: rest ⊆ (List.range n).map (fun i : ℕ => (i : α) + 1) →
      (∃ k : ℕ, k < n ∧ (k : α) + 1 = i) ∧
        rest ⊆ (List.range n).map (fun i : ℕ => (i : α) + 1) := by
    intro n i rest levels
    obtain ⟨here, later⟩ := List.cons_subset.mp levels
    obtain ⟨k, member, same⟩ := List.mem_map.mp here
    exact ⟨⟨k, List.mem_range.mp member, same⟩, later⟩
  apply Outcome.Ends.state
  unfold start
  refine (Outcome.forEach_ends (fun rest s => Inv s ∧
      rest ⊆ (List.range cfg.levelsBelow.toNat).map (fun i : ℕ => (i : α) + 1)) ?_
    ⟨before, List.Subset.refl _⟩).bind fun s kept =>
    (Outcome.forEach_ends (fun rest s => Inv s ∧
      rest ⊆ (List.range cfg.levelsAbove.toNat).map (fun i : ℕ => (i : α) + 1)) ?_
    ⟨kept.1, List.Subset.refl _⟩).mono (fun s kept => kept.1) fun s kept => kept
  · rintro i rest s ⟨kept, levels⟩
    obtain ⟨⟨k, small, rfl⟩, later⟩ := level levels
    exact (below s k small kept).mono (fun s' kept => ⟨kept, later⟩) fun s' kept => kept
  · rintro i rest s ⟨kept, levels⟩
    obtain ⟨⟨k, small, rfl⟩, later⟩ := level levels
    exact (above s k small kept).mono (fun s' kept => ⟨kept, later⟩) fun s' kept => kept

end Start

end GridStrategy

end SpotGridBot.Strategy
