import SpotGridBot.Strategy.Storage

namespace SpotGridBot.Strategy
open Utils SpotGridBot.Core Runs

section Definitions
variable {α : Type} [Zero α] [LT α]

def AllPositive (history : List (Record α)) : Prop :=
  ∀ cause side price qty result, .call cause side price qty result ∈ history → 0 < qty

def PlacesPositive (s : GridStrategy α) : Prop := AllPositive s.history

variable [One α] [NatCast α] [Add α] [Sub α] [Mul α] [LE α] [DecidableLE α] [DecidableLT α]
  [Doubles α] (cfg : GridConfig α) (s : GridStrategy α)

/-- The fill of the order did not go above its known fill, and the hedge of the difference is
placed. -/
def FallsBack (orderId : OrderId) : Prop :=
  ∃ order ∈ s.orderManager.orders orderId, order.status = .partiallyFilled ∧
    ¬ 0 < order.filled - s.knownFilled orderId ∧
    Doubles.isTrue (Doubles.round (order.filled - s.knownFilled orderId)) = true ∧
    s.PassesPartial cfg orderId (order.filled - s.knownFilled orderId)

instance (orderId : OrderId) : Decidable (FallsBack cfg s orderId) :=
  inferInstanceAs (Decidable (∃ order ∈ s.orderManager.orders orderId, _ ∧ _))

def NeverFallsBack : Event α → Prop
  | .checkFilledOrders replies =>
      ∀ v ∈ ({ s with replies := replies } : GridStrategy α).visits cfg, ¬ FallsBack cfg v.1 v.2
  | _ => True

instance : (e : Event α) → Decidable (NeverFallsBack cfg s e)
  | .checkFilledOrders _ => inferInstanceAs (Decidable (∀ v ∈ _, _))
  | .start _ => .isTrue trivial
  | .updateOrder _ _ _ => .isTrue trivial
  | .syncOrder _ _ _ _ _ _ => .isTrue trivial
  | .setBalance _ _ => .isTrue trivial

end Definitions

namespace GridStrategy

section Positive
variable {α : Type} [Zero α] [LT α] {s s' : GridStrategy α} {orderId : OrderId}

structure Positive (s : GridStrategy α) : Prop where
  placed : PlacesPositive s
  details : ∀ i details, s.orderDetails i = some details → 0 < details.qty
  detailed : s.Detailed

theorem placesPositive_append {entries : List (Record α)}
    (appended : s'.history = s.history ++ entries) :
    PlacesPositive s' ↔ PlacesPositive s ∧
      ∀ cause side price qty result, .call cause side price qty result ∈ entries → 0 < qty := by
  simp only [PlacesPositive, AllPositive, appended, List.mem_append]
  constructor
  · intro all
    exact ⟨fun _ _ _ _ _ old => all _ _ _ _ _ (.inl old),
      fun _ _ _ _ _ new => all _ _ _ _ _ (.inr new)⟩
  · rintro ⟨before, after⟩ cause side price qty result (old | new)
    · exact before _ _ _ _ _ old
    · exact after _ _ _ _ _ new

namespace Positive

theorem frame (positive : s.Positive) (same : SameBooks s s') : s'.Positive where
  placed := by simpa [PlacesPositive, same.history] using positive.placed
  details := same.orderDetails ▸ positive.details
  detailed := by
    unfold Detailed
    rw [same.orderDetails, same.activeOrders]
    exact positive.detailed

theorem decline (positive : s.Positive) (cause : Cause) (qty : α) :
    (s.record (.declined cause qty)).Positive where
  placed := (placesPositive_append rfl).mpr ⟨positive.placed, by simp⟩
  details := positive.details
  detailed := positive.detailed

theorem remove (positive : s.Positive) (orderId : OrderId) : (s.remove orderId).Positive where
  placed := (placesPositive_append rfl).mpr ⟨positive.placed, by simp⟩
  details i details here := by
    by_cases same : i = orderId
    · simp [GridStrategy.remove, same] at here
    · exact positive.details i details (by simpa [GridStrategy.remove, same] using here)
  detailed := positive.detailed.remove orderId

theorem track (positive : s.Positive) {newId : OrderId} (details : OrderDetails α)
    (pos : 0 < details.qty) (placed : PlacesPositive s')
    (active : s'.activeOrders = s.activeOrders ++ [newId])
    (tracked : s'.orderDetails = Function.update s.orderDetails newId (some details)) :
    s'.Positive where
  placed := placed
  details i found here := by
    rw [tracked, Function.update_apply] at here
    split at here
    · obtain rfl := Option.some.inj here
      exact pos
    · exact positive.details i found here
  detailed := positive.detailed.track active tracked

theorem place (positive : s.Positive) {qty : α} (pos : 0 < qty) (cause : Cause) (side : Side)
    (price : α) :
    (s.placeAndTrack cause side price qty).Ends
      (fun s' => s'.Positive ∧ s.activeOrders ⊆ s'.activeOrders) Positive := by
  have called : ∀ (s' : GridStrategy α) (result : Option OrderId),
      s'.history = s.history ++ [.call cause side price qty result] → PlacesPositive s' := by
    intro s' result appended
    apply (placesPositive_append appended).mpr
    refine ⟨positive.placed, fun _ _ _ qty' _ new => ?_⟩
    obtain ⟨-, -, -, rfl, -⟩ : _ ∧ _ ∧ _ ∧ qty' = qty ∧ _ := by simpa using new
    exact pos
  apply place_rule
  · exact ⟨called _ none rfl, positive.details, positive.detailed⟩
  · intro _ _
    exact ⟨positive.track ⟨side, price, qty⟩ pos (called _ (some "") rfl) rfl rfl,
      List.subset_append_left _ _⟩
  · intro newId _
    exact ⟨positive.track ⟨side, price, qty⟩ pos (called _ (some newId) rfl) rfl rfl,
      List.subset_append_left _ _⟩

end Positive

end Positive

namespace Positive
variable {α : Type} [Zero α] [One α] [Add α] [Sub α] [Mul α] [LE α] [LT α] [DecidableLE α]
  [DecidableLT α] [Doubles α] (cfg : GridConfig α) {s s' : GridStrategy α} {orderId : OrderId}

theorem visit (positive : s.Positive) (active : orderId ∈ s.activeOrders)
    (keeps : ¬ FallsBack cfg s orderId) :
    (s.visit cfg orderId).Ends (fun s' => s'.Positive ∧ s.activeOrders ⊆ s'.activeOrders)
      Positive := by
  have idle : ∀ s', SameBooks s s' → s'.Positive ∧ s.activeOrders ⊆ s'.activeOrders :=
    fun s' same => ⟨positive.frame same, fun i member => same.activeOrders ▸ member⟩
  cases cached : s.orderManager.orders orderId with
  | none =>
      rw [visit_unknown cfg cached]
      exact idle s ⟨rfl, rfl, rfl⟩
  | some order =>
      cases status : order.status with
      | new =>
          rw [visit_new cfg cached status]
          exact idle s ⟨rfl, rfl, rfl⟩
      | canceled =>
          rw [visit_dead cfg cached (.inl status)]
          exact idle _ ⟨rfl, rfl, rfl⟩
      | rejected =>
          rw [visit_dead cfg cached (.inr status)]
          exact idle _ ⟨rfl, rfl, rfl⟩
      | filled =>
          rw [visit_hedgeFilled cfg cached status]
          have pos := positive.details orderId _ (positive.detailed.orderDetails active)
          have hedged : (s.hedgeFilled cfg orderId).Ends
              (fun s' => s'.Positive ∧ s.activeOrders ⊆ s'.activeOrders) Positive := by
            apply hedgeFilled_rule
            · rw [positive.detailed.touchDetails active]
              exact ⟨positive.decline _ _, List.Subset.refl _⟩
            · intro _ side price
              rw [positive.detailed.touchDetails active]
              exact positive.place pos _ side price
          exact hedged.bind fun s' kept => ⟨kept.1.frame ⟨rfl, rfl, rfl⟩, kept.2⟩
      | partiallyFilled =>
          cases newFill : Doubles.isTrue (Doubles.round (order.filled - s.knownFilled orderId)) with
          | false =>
              rw [visit_seen cfg cached status newFill]
              exact idle _ ⟨rfl, rfl, rfl⟩
          | true =>
              rw [visit_hedgePartial cfg cached status newFill]
              obtain ⟨noted, -⟩ := idle (s.setKnown orderId order.filled) ⟨rfl, rfl, rfl⟩
              have touched : (s.setKnown orderId order.filled).touchDetails orderId =
                  s.setKnown orderId order.filled := noted.detailed.touchDetails active
              apply hedgePartial_rule
              · rw [touched]
                exact ⟨noted.decline _ _, List.Subset.refl _⟩
              · intro passes side price
                rw [touched]
                have pos : 0 < order.filled - s.knownFilled orderId := by
                  by_contra fell
                  exact keeps ⟨order, cached, status, fell, newFill, passes⟩
                exact noted.place pos _ side price

theorem fallsBack (falls : FallsBack cfg s orderId) :
    ¬ PlacesPositive (s.visit cfg orderId).state := by
  obtain ⟨order, cached, status, fell, newFill, passes⟩ := falls
  rw [visit_hedgePartial cfg (Option.mem_def.mp cached) status newFill]
  rcases (s.setKnown orderId order.filled).hedgePartial_cases cfg orderId
    (order.filled - s.knownFilled orderId) with ⟨-, places⟩ | ⟨declines, -⟩
  · rw [places]
    obtain ⟨result, called⟩ := history_placeAndTrack
      ((s.setKnown orderId order.filled).touchDetails orderId) (.partialFill orderId)
      (hedgeSide ((s.setKnown orderId order.filled).details orderId))
      (hedgePrice cfg ((s.setKnown orderId order.filled).details orderId))
      (order.filled - s.knownFilled orderId)
    intro placed
    exact fell (((placesPositive_append called).mp placed).2 _ _ _ _ _
      (List.mem_singleton_self _))
  · exact absurd passes declines

theorem pass (positive : s.Positive) (keeps : ∀ v ∈ s.visits cfg, ¬ FallsBack cfg v.1 v.2) :
    (s.checkFilledOrders cfg).state.Positive := by
  apply pass_keeps cfg (fun s i => ¬ FallsBack cfg s i) _ _ _ positive keeps
  · exact fun s s' same positive => positive.frame same
  · exact fun s orderId keeps active positive => positive.visit cfg active keeps
  · exact fun s orderId positive => positive.remove orderId

theorem pass_falls (positive : s.Positive)
    (falls : ¬ ∀ v ∈ s.visits cfg, ¬ FallsBack cfg v.1 v.2) :
    ¬ PlacesPositive (s.checkFilledOrders cfg).state := by
  apply pass_breaks cfg (fun s i => ¬ FallsBack cfg s i) _ _ _ _ positive falls
  · exact fun s s' same positive => positive.frame same
  · exact fun s orderId keeps active positive => positive.visit cfg active keeps
  · exact fun history entries all cause side price qty result member =>
      all cause side price qty result (List.mem_append_left entries member)
  · intro s orderId falls _ _
    exact fallsBack cfg (not_not.mp falls)

omit [LE α] [DecidableLE α] [DecidableLT α] [Doubles α] in
theorem start [NatCast α] (positive : s.Positive) (pos : 0 < cfg.percentOrderQty) :
    (s.start cfg).state.Positive := by
  apply start_rule cfg _ _ positive
  · intro s i _ positive
    exact (positive.place pos .grid .buy _).mono (fun s' kept => kept.1) fun s' kept => kept
  · intro s i _ positive
    exact (positive.place pos .grid .sell _).mono (fun s' kept => kept.1) fun s' kept => kept

omit [One α] [Add α] [Sub α] [Mul α] [LE α] [DecidableLE α] [DecidableLT α] [Doubles α] in
theorem report (positive : s.Positive) (orderId : OrderId) (status : OrderStatus) (filled : α)
    (m : OrderManager α) :
    Positive { s.report orderId status filled with orderManager := m } := by
  unfold GridStrategy.report
  cases s.orderManager.orders orderId with
  | none => exact positive.frame ⟨rfl, rfl, rfl⟩
  | some order =>
      exact ⟨(placesPositive_append rfl).mpr ⟨positive.placed, by simp⟩, positive.details,
        positive.detailed⟩

end Positive

end GridStrategy

open GridStrategy

section Runs
variable {α : Type} [Zero α] [One α] [NatCast α] [Add α] [Sub α] [Mul α] [LE α] [LT α]
  [DecidableLE α] [DecidableLT α] [Doubles α] (spare : ℕ → ℕ) (cfg : GridConfig α)

theorem placesPositive_iff_neverFallsBack (pos : 0 < cfg.percentOrderQty) (m : OrderManager α)
    (events : List (Event α)) :
    Always (step cfg) PlacesPositive { orderManager := m } events ↔
      Along (step cfg) (NeverFallsBack cfg) { orderManager := m } events := by
  have initial : Positive { orderManager := m } :=
    ⟨by simp [PlacesPositive, AllPositive], by simp, by simp [Detailed]⟩
  have allowed : Along (step cfg) (fun _ _ => True) { orderManager := m } events :=
    along_of_forall (fun _ _ => trivial) _
  apply always_iff_along _ (fun s positive => positive.placed) _ initial allowed
  · intro s e _ positive keeps
    cases e with
    | start replies =>
        have supplied : Positive { s with replies := replies } := positive.frame ⟨rfl, rfl, rfl⟩
        exact supplied.start cfg pos
    | checkFilledOrders replies =>
        have supplied : Positive { s with replies := replies } := positive.frame ⟨rfl, rfl, rfl⟩
        exact supplied.pass cfg keeps
    | updateOrder orderId status filled => exact positive.report orderId status filled _
    | syncOrder orderId side price quantity status filled =>
        exact positive.report orderId status filled _
    | setBalance currency amount => exact positive.frame ⟨rfl, rfl, rfl⟩
  · intro s e _ positive falls
    cases e with
    | checkFilledOrders replies =>
        have supplied : Positive { s with replies := replies } := positive.frame ⟨rfl, rfl, rfl⟩
        exact supplied.pass_falls cfg falls
    | _ => exact absurd trivial falls

/-- The strategy places no quantity below or at zero exactly when every hedge finds room in the
vector and no pass hedges a fill that fell back. -/
theorem stored_placesPositive_iff (pos : 0 < cfg.percentOrderQty) (m : OrderManager α)
    (capacity : ℕ) (events : List (Event α)) :
    Always (Stored.step spare cfg) (Stored.Defined PlacesPositive)
        (some ⟨{ orderManager := m }, capacity⟩) events ↔
      Along (Stored.step spare cfg) (Stored.Meets cfg (NeverFallsBack cfg))
        (some ⟨{ orderManager := m }, capacity⟩) events := by
  have fits : ({ orderManager := m } : GridStrategy α).activeOrders.length ≤ capacity :=
    Nat.zero_le capacity
  rw [Stored.always_iff spare cfg fits, Stored.along_meets_iff spare cfg fits]
  exact and_congr_right fun _ => placesPositive_iff_neverFallsBack cfg pos m events

end Runs

def olderReport : List Event := [
  .start [.accepted "1", .accepted "2", .accepted "3", .accepted "4", .accepted "5"],
  .updateOrder "1" .partiallyFilled 4,
  .checkFilledOrders [.accepted "6"],
  .updateOrder "1" .partiallyFilled 2,
  .checkFilledOrders [.accepted "7"]]

theorem olderReport_placesNegative :
    0 < (ladder 10).percentOrderQty ∧
    ¬ Always (Stored.step Growing.doubling { ladder 10 with levelsBelow := 5 })
      (Stored.Defined PlacesPositive) (some ⟨{ orderManager := emptyManager }, 0⟩) olderReport := by
  refine ⟨by decide +kernel, fun always => ?_⟩
  obtain ⟨r, last, positive⟩ := always.last
  have call : .call (.partialFill "1") .sell (9999 / 100) (-2) (some "7") ∈
      ((run (Stored.step Growing.doubling { ladder 10 with levelsBelow := 5 })
        (some ⟨{ orderManager := emptyManager }, 0⟩) olderReport).map
          fun r => r.strategy.history).getD [] := by
    decide +kernel
  rw [last] at call
  have pos := positive _ _ _ _ _ call
  norm_num at pos

theorem stored_placesPositive_growing :
    Always (Stored.step Growing.doubling { ladder 10 with levelsBelow := 5 })
      (Stored.Defined PlacesPositive) (some ⟨{ orderManager := emptyManager }, 0⟩) [
        .start [.accepted "1", .accepted "2", .accepted "3", .accepted "4", .accepted "5"],
        .updateOrder "1" .partiallyFilled 4,
        .checkFilledOrders [.accepted "6"],
        .updateOrder "1" .partiallyFilled 6,
        .checkFilledOrders [.accepted "7"]] :=
  (stored_placesPositive_iff Growing.doubling { ladder 10 with levelsBelow := 5 }
    (by decide +kernel) emptyManager 0 _).mpr (by decide +kernel)

end SpotGridBot.Strategy
