import SpotGridBot.Strategy.Storage
import SpotGridBot.Strategy.Visits
import Mathlib.Tactic.Linarith
import Mathlib.Tactic.Positivity
import Mathlib.Tactic.Ring

namespace SpotGridBot.Strategy
open Utils SpotGridBot.Core Runs

structure Descent where
  side : Side
  price : ℚ
  -- The price of the initial order.
  origin : ℚ
  -- Hedges of a BUY order and of a SELL order on the way.
  rises : ℕ
  falls : ℕ
deriving DecidableEq

namespace Descent

def initial (side : Side) (price : ℚ) : Descent := ⟨side, price, price, 0, 0⟩

def hedge (parent : Descent) (side : Side) (price : ℚ) : Descent where
  side := side
  price := price
  origin := parent.origin
  rises := if parent.side = .buy then parent.rises + 1 else parent.rises
  falls := if parent.side = .buy then parent.falls else parent.falls + 1

def Exact (cfg : GridConfig) (d : Descent) : Prop :=
  d.price = d.origin * (1 + cfg.stepPercent) ^ d.rises * (1 - cfg.stepPercent) ^ d.falls

def Profitable (parent : Descent) (side : Side) (price : ℚ) : Prop :=
  (parent.side = .buy ∧ side = .sell ∧ parent.price < price) ∨
    (parent.side = .sell ∧ side = .buy ∧ price < parent.price)

end Descent

def descend (descents : OrderId → Option Descent) : Record → OrderId → Option Descent
  | .call cause side price _ (some newId) =>
      Function.update descents newId <|
        match cause.parent with
        | none => some (.initial side price)
        | some parent => (descents parent).map fun d => d.hedge side price
  | _ => descents

def descents (history : List Record) : OrderId → Option Descent :=
  history.foldl descend fun _ => none

def Record.Profitable (earlier : List Record) : Record → Prop
  | .call cause side price _ _ => ∀ parent ∈ cause.parent,
      ∃ d, descents earlier parent = some d ∧ d.Profitable side price
  | _ => True

structure WellPriced (cfg : GridConfig) (history : List Record) : Prop where
  profitable : ∀ earlier entry, earlier ++ [entry] <+: history → entry.Profitable earlier
  exact : ∀ earlier, earlier <+: history → ∀ i d, descents earlier i = some d → d.Exact cfg

structure GridPriced (cfg : GridConfig) (s : GridStrategy) : Prop where
  history : WellPriced cfg s.history
  tracked : ∀ i ∈ s.activeOrders, ∃ details d, s.orderDetails i = some details ∧
    descents s.history i = some d ∧ details.price = d.price ∧ 0 < details.price

theorem descents_append (history : List Record) (entry : Record) :
    descents (history ++ [entry]) = descend (descents history) entry := by
  simp [descents, List.foldl_append]

namespace WellPriced
variable {cfg : GridConfig} {history : List Record} {entry : Record}

theorem nil : WellPriced cfg [] where
  profitable earlier entry isPrefix := by simp at isPrefix
  exact earlier isPrefix i d here := by
    obtain rfl := List.prefix_nil.mp isPrefix
    simp [descents] at here

theorem append (priced : WellPriced cfg history) (profitable : entry.Profitable history)
    (exact : ∀ i d, descend (descents history) entry i = some d → d.Exact cfg) :
    WellPriced cfg (history ++ [entry]) where
  profitable earlier entry' isPrefix := by
    rcases List.prefix_concat_iff.mp isPrefix with whole | before
    · obtain ⟨rfl, same⟩ := List.append_inj' whole rfl
      obtain rfl : entry' = entry := by simpa using same
      exact profitable
    · exact priced.profitable earlier entry' before
  exact earlier isPrefix := by
    rcases List.prefix_concat_iff.mp isPrefix with whole | before
    · rw [whole, descents_append]
      exact exact
    · exact priced.exact earlier before

theorem silent (priced : WellPriced cfg history) (profitable : entry.Profitable history)
    (same : descend (descents history) entry = descents history) :
    WellPriced cfg (history ++ [entry]) := by
  apply priced.append profitable
  rw [same]
  exact priced.exact history List.prefix_rfl

end WellPriced

structure ProperGrid (cfg : GridConfig) : Prop where
  base : 0 < cfg.basePrice
  pos : 0 < cfg.stepPercent
  lt : cfg.stepPercent < 1
  levels : cfg.stepPercent * cfg.levelsBelow < 1

namespace Descent
variable {cfg : GridConfig} (parent : Descent) {details : OrderDetails}

theorem profitable_hedge (proper : ProperGrid cfg) (side : parent.side = details.side)
    (price : parent.price = details.price) (pos : 0 < parent.price)
    (valid : parent.side = .buy ∨ parent.side = .sell) :
    parent.Profitable (hedgeSide details) (hedgePrice cfg details) := by
  have gain : 0 < parent.price * cfg.stepPercent := mul_pos pos proper.pos
  unfold hedgeSide hedgePrice
  rw [← side, ← price]
  rcases valid with bought | sold
  · refine .inl ⟨bought, by simp [bought], ?_⟩
    rw [if_pos bought]
    linarith
  · refine .inr ⟨sold, by simp [sold], ?_⟩
    rw [if_neg (by simp [sold])]
    linarith

theorem hedgePrice_pos (proper : ProperGrid cfg) (price : parent.price = details.price)
    (pos : 0 < parent.price) : 0 < hedgePrice cfg details := by
  have step := proper.pos
  have small := proper.lt
  unfold hedgePrice
  rw [← price]
  apply mul_pos pos
  split <;> linarith

theorem exact_hedge (exact : parent.Exact cfg) (side : parent.side = details.side)
    (price : parent.price = details.price) :
    (parent.hedge (hedgeSide details) (hedgePrice cfg details)).Exact cfg := by
  simp only [Exact, hedge, hedgePrice, ← side, ← price]
  rw [exact]
  split
  · ring
  · ring

end Descent

namespace GridStrategy
variable {cfg : GridConfig} {s s' : GridStrategy} {orderId : OrderId}

structure Priced (cfg : GridConfig) (s : GridStrategy) : Prop where
  history : WellPriced cfg s.history
  detailed : s.Detailed
  details : ∀ i details, s.orderDetails i = some details → ∃ d, descents s.history i = some d ∧
    d.side = details.side ∧ d.price = details.price ∧ 0 < d.price ∧
    (d.side = .buy ∨ d.side = .sell)

namespace Priced

theorem gridPriced (priced : s.Priced cfg) : GridPriced cfg s where
  history := priced.history
  tracked i active := by
    have here := priced.detailed.orderDetails active
    obtain ⟨d, descent, -, price, pos, -⟩ := priced.details i _ here
    exact ⟨s.details i, d, here, descent, price.symm, price ▸ pos⟩

theorem frame (priced : s.Priced cfg) (same : SameBooks s s') : s'.Priced cfg where
  history := same.history ▸ priced.history
  detailed := by
    unfold Detailed
    rw [same.orderDetails, same.activeOrders]
    exact priced.detailed
  details := by
    rw [same.orderDetails, same.history]
    exact priced.details

theorem silent (priced : s.Priced cfg) {entry : Record} (profitable : entry.Profitable s.history)
    (same : descend (descents s.history) entry = descents s.history)
    (history : s'.history = s.history ++ [entry]) (detailed : s'.Detailed)
    (details : ∀ i details, s'.orderDetails i = some details → s.orderDetails i = some details) :
    s'.Priced cfg where
  history := history ▸ priced.history.silent profitable same
  detailed := detailed
  details i found here := by
    rw [history, descents_append, same]
    exact priced.details i found (details i found here)

theorem decline (priced : s.Priced cfg) (cause : Cause) (qty : ℚ) :
    (s.record (.declined cause qty)).Priced cfg := by
  have profitable : (Record.declined cause qty).Profitable s.history := trivial
  exact priced.silent profitable rfl rfl priced.detailed fun _ _ here => here

theorem remove (priced : s.Priced cfg) (orderId : OrderId) : (s.remove orderId).Priced cfg := by
  have profitable : (Record.left orderId (s.orderManager.getOrderLocal orderId)).Profitable
      s.history := trivial
  apply priced.silent profitable rfl rfl (priced.detailed.remove orderId)
  intro i details here
  by_cases same : i = orderId
  · simp [GridStrategy.remove, same] at here
  · simpa [GridStrategy.remove, same] using here

theorem track (priced : s.Priced cfg) {newId : OrderId} {cause : Cause} {side : Side}
    {price qty : ℚ} (d : Descent) (own : d.side = side ∧ d.price = price)
    (profitable : (Record.call cause side price qty (some newId)).Profitable s.history)
    (descent : descend (descents s.history) (.call cause side price qty (some newId)) =
      Function.update (descents s.history) newId (some d))
    (exact : d.Exact cfg) (pos : 0 < price) (valid : side = .buy ∨ side = .sell)
    (history : s'.history = s.history ++ [.call cause side price qty (some newId)])
    (active : s'.activeOrders = s.activeOrders ++ [newId])
    (tracked : s'.orderDetails =
      Function.update s.orderDetails newId (some ⟨side, price, qty⟩)) : s'.Priced cfg where
  history := by
    rw [history]
    apply priced.history.append profitable
    intro i found here
    rw [descent, Function.update_apply] at here
    split at here
    · obtain rfl := Option.some.inj here
      exact exact
    · exact priced.history.exact s.history List.prefix_rfl i found here
  detailed := priced.detailed.track active tracked
  details i found here := by
    rw [history, descents_append, descent]
    rw [tracked] at here
    by_cases same : i = newId
    · subst same
      obtain rfl : ⟨side, price, qty⟩ = found := by simpa using here
      exact ⟨d, by simp, own.1, own.2, own.2 ▸ pos, own.1 ▸ valid⟩
    · rw [Function.update_of_ne same] at here ⊢
      exact priced.details i found here

theorem place (priced : s.Priced cfg) {cause : Cause} {side : Side} {price qty : ℚ} (d : Descent)
    (own : d.side = side ∧ d.price = price)
    (profitable : ∀ result, (Record.call cause side price qty result).Profitable s.history)
    (descent : ∀ newId, descend (descents s.history) (.call cause side price qty (some newId)) =
      Function.update (descents s.history) newId (some d))
    (exact : d.Exact cfg) (pos : 0 < price) (valid : side = .buy ∨ side = .sell) :
    (s.placeAndTrack cause side price qty).Ends
      (fun s' => s'.Priced cfg ∧ s.activeOrders ⊆ s'.activeOrders) (Priced cfg) := by
  have tracks : ∀ (s' : GridStrategy) newId,
      s'.history = s.history ++ [.call cause side price qty (some newId)] →
      s'.activeOrders = s.activeOrders ++ [newId] →
      s'.orderDetails = Function.update s.orderDetails newId (some ⟨side, price, qty⟩) →
      s'.Priced cfg := fun s' newId =>
    priced.track d own (profitable (some newId)) (descent newId) exact pos valid
  rcases s.placeAndTrack_cases cause side price qty with
    ⟨-, -, ends⟩ | ⟨-, -, ends⟩ | ⟨newId, -, -, ends⟩
  · rw [ends]
    exact priced.silent (profitable none) rfl rfl priced.detailed fun _ _ here => here
  · rw [ends]
    exact ⟨tracks _ "" rfl rfl rfl, List.subset_append_left _ _⟩
  · rw [ends]
    exact ⟨tracks _ newId rfl rfl rfl, List.subset_append_left _ _⟩

theorem placeInitial (priced : s.Priced cfg) {side : Side} {price : ℚ} (qty : ℚ) (pos : 0 < price)
    (valid : side = .buy ∨ side = .sell) :
    (s.placeAndTrack .grid side price qty).Ends (Priced cfg) (Priced cfg) := by
  apply (priced.place (.initial side price) ⟨rfl, rfl⟩ _ (fun _ => rfl) _ pos valid).mono
  · exact fun s' kept => kept.1
  · exact fun s' kept => kept
  · intro result parent own
    simp [Cause.parent] at own
  · simp [Descent.Exact, Descent.initial]

theorem placeHedge (proper : ProperGrid cfg) (priced : s.Priced cfg)
    (active : orderId ∈ s.activeOrders) {cause : Cause} (own : cause.parent = some orderId)
    (qty : ℚ) :
    (s.placeAndTrack cause (hedgeSide (s.details orderId)) (hedgePrice cfg (s.details orderId))
      qty).Ends (fun s' => s'.Priced cfg ∧ s.activeOrders ⊆ s'.activeOrders) (Priced cfg) := by
  obtain ⟨parent, descent, side, price, pos, valid⟩ :=
    priced.details orderId _ (priced.detailed.orderDetails active)
  have exact := priced.history.exact s.history List.prefix_rfl orderId parent descent
  have hedges := parent.profitable_hedge proper side price pos valid
  have hedged : (parent.hedge (hedgeSide (s.details orderId))
      (hedgePrice cfg (s.details orderId))).side = hedgeSide (s.details orderId) ∧
      (parent.hedge (hedgeSide (s.details orderId)) (hedgePrice cfg (s.details orderId))).price =
        hedgePrice cfg (s.details orderId) := ⟨rfl, rfl⟩
  apply priced.place _ hedged
  · intro result i same
    obtain rfl : orderId = i := Option.some.inj (own.symm.trans same)
    exact ⟨parent, descent, hedges⟩
  · intro newId
    simp [descend, own, descent]
  · exact parent.exact_hedge exact side price
  · exact parent.hedgePrice_pos proper price pos
  · unfold hedgeSide
    split
    · exact .inr rfl
    · exact .inl rfl

theorem visit (proper : ProperGrid cfg) (priced : s.Priced cfg)
    (active : orderId ∈ s.activeOrders) :
    (s.visit cfg orderId).Ends (fun s' => s'.Priced cfg ∧ s.activeOrders ⊆ s'.activeOrders)
      (Priced cfg) := by
  apply visit_rule_due cfg (fun s s' same priced => priced.frame same)
    (fun s cause qty priced => priced.decline cause qty) priced.detailed active _ priced
  intro s₁ cause qty same priced₁ due _
  have details : s₁.details orderId = s.details orderId := by
    simp only [GridStrategy.details, same.orderDetails]
  rw [← details]
  exact priced₁.placeHedge proper (same.activeOrders ▸ active) (due_parent due) qty

theorem pass (proper : ProperGrid cfg) (priced : s.Priced cfg) :
    (s.checkFilledOrders cfg).state.Priced cfg := by
  apply pass_keeps cfg (fun _ _ => True) _ _ _ priced (fun _ _ => trivial)
  · exact fun s s' same priced => priced.frame same
  · exact fun s orderId _ active priced => priced.visit proper active
  · exact fun s orderId priced => priced.remove orderId

theorem start (proper : ProperGrid cfg) (priced : s.Priced cfg) :
    (s.start cfg).state.Priced cfg := by
  have base := proper.base
  have step := proper.pos
  apply start_rule cfg _ _ priced
  · intro s i small priced
    apply priced.placeInitial _ _ (.inl rfl)
    have within : ((i : ℚ) + 1) ≤ cfg.levelsBelow := by
      have whole : (i : ℤ) + 1 ≤ cfg.levelsBelow := by omega
      exact_mod_cast whole
    have fraction : cfg.stepPercent * (i + 1) < 1 :=
      (mul_le_mul_of_nonneg_left within step.le).trans_lt proper.levels
    apply mul_pos base
    linarith
  · intro s i _ priced
    apply priced.placeInitial _ _ (.inr rfl)
    have level : (0 : ℚ) ≤ i := Nat.cast_nonneg i
    positivity

theorem report (priced : s.Priced cfg) (orderId : OrderId) (status : OrderStatus) (filled : ℚ)
    (m : OrderManager) :
    Priced cfg { s.report orderId status filled with orderManager := m } := by
  unfold GridStrategy.report
  cases s.orderManager.orders orderId with
  | none => exact priced.frame ⟨rfl, rfl, rfl⟩
  | some order =>
      have profitable : (Record.report orderId status filled).Profitable s.history := trivial
      exact priced.silent profitable rfl rfl priced.detailed fun _ _ here => here

end Priced

end GridStrategy

open GridStrategy

theorem always_gridPriced (cfg : GridConfig) (proper : ProperGrid cfg) (m : OrderManager)
    (events : List Event) :
    Always (step cfg) (GridPriced cfg) { orderManager := m } events := by
  have initial : Priced cfg { orderManager := m } :=
    ⟨WellPriced.nil, by simp [Detailed], by simp⟩
  have allowed : Along (step cfg) (fun _ _ => True) { orderManager := m } events :=
    along_of_forall (fun _ _ => trivial) _
  apply (always_of_invariant _ initial allowed).mono fun s priced => priced.gridPriced
  intro s e _ priced
  cases e with
  | start replies =>
      have supplied : Priced cfg { s with replies := replies } := priced.frame ⟨rfl, rfl, rfl⟩
      exact supplied.start proper
  | checkFilledOrders replies =>
      have supplied : Priced cfg { s with replies := replies } := priced.frame ⟨rfl, rfl, rfl⟩
      exact supplied.pass proper
  | updateOrder orderId status filled => exact priced.report orderId status filled _
  | syncOrder orderId side price quantity status filled =>
      exact priced.report orderId status filled _
  | setBalance currency amount => exact priced.frame ⟨rfl, rfl, rfl⟩

theorem ladder_proper : ProperGrid (ladder 10) :=
  ⟨by decide +kernel, by decide +kernel, by decide +kernel, by decide +kernel⟩

/-- Whatever the exchange answers and reports, grid prices stay positive and hedges profitable, up to
the first hedge that finds no room. -/
theorem stored_gridPriced_iff (spare : ℕ → ℕ) (cfg : GridConfig) (proper : ProperGrid cfg)
    (m : OrderManager) (capacity : ℕ) (events : List Event) :
    Always (Stored.step spare cfg) (Stored.Defined (GridPriced cfg))
        (some ⟨{ orderManager := m }, capacity⟩) events ↔
      Stored.Roomy spare cfg (some ⟨{ orderManager := m }, capacity⟩) events := by
  rw [Stored.always_iff spare cfg (Nat.zero_le capacity)]
  exact and_iff_left (always_gridPriced cfg proper m events)

def oneFilled : List Event := [
  .start [.accepted "1"],
  .updateOrder "1" .filled 10,
  .checkFilledOrders [.accepted "2"]]

theorem oneFilled_movesStorage :
    ProperGrid (ladder 10) ∧
    run (Stored.step Growing.doubling (ladder 10)) (some ⟨{ orderManager := emptyManager }, 0⟩)
      oneFilled = none ∧
    ¬ Always (Stored.step Growing.doubling (ladder 10)) (Stored.Defined (GridPriced (ladder 10)))
      (some ⟨{ orderManager := emptyManager }, 0⟩) oneFilled := by
  have moved : run (Stored.step Growing.doubling (ladder 10))
      (some ⟨{ orderManager := emptyManager }, 0⟩) oneFilled = none := by
    rw [← Option.isNone_iff_eq_none]
    decide +kernel
  refine ⟨ladder_proper, moved, fun always => ?_⟩
  obtain ⟨r, last, -⟩ := always.last
  rw [moved] at last
  contradiction

theorem stored_gridPriced_iff_oneFilled :
    Always (Stored.step Growing.doubling (ladder 10)) (Stored.Defined (GridPriced (ladder 10)))
        (some ⟨{ orderManager := emptyManager }, 2⟩) oneFilled ↔
      Stored.Roomy Growing.doubling (ladder 10) (some ⟨{ orderManager := emptyManager }, 2⟩)
        oneFilled :=
  stored_gridPriced_iff Growing.doubling (ladder 10) ladder_proper emptyManager 2 oneFilled

end SpotGridBot.Strategy
