import SpotGridBot.Strategy.Rules

namespace SpotGridBot.Strategy
open Utils SpotGridBot.Core Runs

def Record.declines {α : Type} : Record α → Bool
  | .declined _ _ => true
  | _ => false

def Cause.newFill (qty : ℚ) : Cause → ℚ
  | .partialFill _ => qty
  | _ => 0

namespace GridStrategy
variable {s s' : GridStrategy} {orderId : OrderId} {cause : Cause} {qty : ℚ}

def due (s : GridStrategy) (orderId : OrderId) : Option (Cause × ℚ) :=
  match s.orderManager.orders orderId with
  | none => none
  | some order =>
      let delta := order.filled - s.knownFilled orderId
      if order.status = .filled then some (.filled orderId, (s.details orderId).qty)
      else if order.status = .partiallyFilled ∧ Utils.round delta ≠ 0 then
        some (.partialFill orderId, delta)
      else none

structure Idle (orderId : OrderId) (s s' : GridStrategy) : Prop where
  orderManager : s'.orderManager = s.orderManager
  activeOrders : s'.activeOrders = s.activeOrders
  orderDetails : s'.orderDetails = s.orderDetails
  replies : s'.replies = s.replies
  history : s'.history = s.history
  known : ∀ i, i ≠ orderId → s'.knownFilled i = s.knownFilled i

theorem Idle.refl (orderId : OrderId) (s : GridStrategy) : Idle orderId s s :=
  ⟨rfl, rfl, rfl, rfl, rfl, fun _ _ => rfl⟩

theorem Idle.setKnown (orderId : OrderId) (s : GridStrategy) (filled : ℚ) :
    Idle orderId s (s.setKnown orderId filled) :=
  { Idle.refl orderId s with
    known := fun i other => by rw [knownFilled_setKnown, if_neg other] }

theorem due_parent (due : s.due orderId = some (cause, qty)) : cause.parent = some orderId := by
  unfold GridStrategy.due at due
  cases cached : s.orderManager.orders orderId with
  | none => simp [cached] at due
  | some order =>
      simp only [cached] at due
      split at due
      · obtain ⟨rfl, -⟩ : Cause.filled orderId = cause ∧ _ := by simpa using due
        rfl
      · obtain ⟨-, rfl, -⟩ : _ ∧ Cause.partialFill orderId = cause ∧ _ := by simpa using due
        rfl

theorem visit_idle (cfg : GridConfig) (notDue : s.due orderId = none) :
    ∃ s', s.visit cfg orderId = .done s' ∧ Idle orderId s s' ∧
      s'.knownFilled orderId = s.knownFilled orderId := by
  cases cached : s.orderManager.orders orderId with
  | none => exact ⟨s, visit_unknown cfg cached, Idle.refl orderId s, rfl⟩
  | some order =>
      simp only [due, cached] at notDue
      cases status : order.status with
      | new => exact ⟨s, visit_new cfg cached status, Idle.refl orderId s, rfl⟩
      | canceled =>
          exact ⟨_, visit_dead cfg cached (.inl status), { Idle.refl orderId s with }, rfl⟩
      | rejected =>
          exact ⟨_, visit_dead cfg cached (.inr status), { Idle.refl orderId s with }, rfl⟩
      | filled => simp [status] at notDue
      | partiallyFilled =>
          have noNewFill : Utils.round (order.filled - s.knownFilled orderId) = 0 := by
            simpa [status] using notDue
          exact ⟨_, visit_noNewFill cfg cached status noNewFill, Idle.setKnown orderId s _,
            by rw [knownFilled_setKnown, if_pos rfl]⟩

theorem visit_due (cfg : GridConfig) (due : s.due orderId = some (cause, qty)) :
    ∃ s₁ marks, Idle orderId (s.touchDetails orderId) s₁ ∧
      s₁.knownFilled orderId = s.knownFilled orderId + cause.newFill qty ∧
      s.visit cfg orderId =
        (Strategy.hedge cfg cause (s.details orderId) qty s₁).bind fun s =>
          .done { s with toRemove := s.toRemove ++ marks } := by
  cases cached : s.orderManager.orders orderId with
  | none => simp [GridStrategy.due, cached] at due
  | some order =>
      simp only [GridStrategy.due, cached] at due
      cases status : order.status with
      | new => simp [status] at due
      | canceled => simp [status] at due
      | rejected => simp [status] at due
      | filled =>
          obtain ⟨rfl, rfl⟩ : Cause.filled orderId = cause ∧ (s.details orderId).qty = qty := by
            simpa [status] using due
          exact ⟨_, [orderId], Idle.refl orderId _, (add_zero _).symm,
            visit_filled cfg cached status⟩
      | partiallyFilled =>
          obtain ⟨newFill, rfl, rfl⟩ : Utils.round (order.filled - s.knownFilled orderId) ≠ 0 ∧
              Cause.partialFill orderId = cause ∧ order.filled - s.knownFilled orderId = qty := by
            simpa [status] using due
          refine ⟨(s.setKnown orderId order.filled).touchDetails orderId, [],
            { Idle.setKnown orderId s order.filled with orderDetails := rfl }, ?_,
            (visit_newFill cfg cached status newFill).trans ?_⟩
          · have known : (s.setKnown orderId order.filled).knownFilled orderId = order.filled := by
              rw [knownFilled_setKnown, if_pos rfl]
            exact known.trans (add_sub_cancel _ _).symm
          · generalize Strategy.hedge cfg _ _ _ _ = outcome
            cases outcome with
            | done s => simp
            | thrown s => rfl

inductive Recorded (cfg : GridConfig) (s : GridStrategy) (orderId : OrderId) : List Record → Prop
  | idle (notDue : s.due orderId = none) : Recorded cfg s orderId []
  | placed {cause : Cause} {qty : ℚ} (due : s.due orderId = some (cause, qty))
      (affordable : Affordable cfg s.orderManager.balance (s.details orderId) qty)
      (result : Option OrderId) :
      Recorded cfg s orderId [.call cause (hedgeSide (s.details orderId))
        (hedgePrice cfg (s.details orderId)) qty result]
  | declined {cause : Cause} {qty : ℚ} (due : s.due orderId = some (cause, qty))
      (short : ¬ Affordable cfg s.orderManager.balance (s.details orderId) qty) :
      Recorded cfg s orderId [.declined cause qty]

theorem visit_records (cfg : GridConfig) (s : GridStrategy) (orderId : OrderId) :
    ∃ entries, Recorded cfg s orderId entries ∧
      (s.visit cfg orderId).state.history = s.history ++ entries := by
  cases due : s.due orderId with
  | none =>
      obtain ⟨s', visited, idle, -⟩ := visit_idle cfg due
      refine ⟨[], .idle due, ?_⟩
      rw [visited, List.append_nil]
      exact idle.history
  | some hedged =>
      obtain ⟨cause, qty⟩ := hedged
      obtain ⟨s₁, marks, idle, -, visited⟩ := visit_due cfg due
      have balance : s₁.orderManager.balance = s.orderManager.balance := by
        rw [idle.orderManager]
        rfl
      have same : (s.visit cfg orderId).state.history =
          (Strategy.hedge cfg cause (s.details orderId) qty s₁).state.history := by
        rw [visited]
        cases Strategy.hedge cfg cause (s.details orderId) qty s₁ with
        | _ => rfl
      have history : s.history = s₁.history := idle.history.symm
      rw [same, Strategy.hedge, balance, history]
      split
      next affordable =>
        obtain ⟨result, called⟩ := history_placeAndTrack s₁ cause
          (hedgeSide (s.details orderId)) (hedgePrice cfg (s.details orderId)) qty
        exact ⟨_, .placed due affordable result, called⟩
      next short => exact ⟨_, .declined due short, rfl⟩

section Rules
variable (cfg : GridConfig) {Inv Failed : GridStrategy → Prop}

theorem visit_rule_due (frame : ∀ s s', SameBooks s s' → Inv s → Inv s')
    (decline : ∀ s cause qty, Inv s → Inv (s.record (.declined cause qty)))
    (detailed : s.Detailed) (active : orderId ∈ s.activeOrders)
    (place : ∀ s₁ cause qty, SameBooks s s₁ → Inv s₁ → s.due orderId = some (cause, qty) →
      Affordable cfg s.orderManager.balance (s.details orderId) qty →
      (s₁.placeAndTrack cause (hedgeSide (s.details orderId))
        (hedgePrice cfg (s.details orderId)) qty).Ends
        (fun s' => Inv s' ∧ s₁.activeOrders ⊆ s'.activeOrders) Failed)
    (before : Inv s) :
    (s.visit cfg orderId).Ends (fun s' => Inv s' ∧ s.activeOrders ⊆ s'.activeOrders) Failed := by
  cases due : s.due orderId with
  | none =>
      obtain ⟨s', visited, idle, -⟩ := visit_idle cfg due
      have same : SameBooks s s' := ⟨idle.activeOrders, idle.orderDetails, idle.history⟩
      rw [visited]
      exact ⟨frame s s' same before, fun i member => idle.activeOrders ▸ member⟩
  | some hedged =>
      obtain ⟨cause, qty⟩ := hedged
      obtain ⟨s₁, marks, idle, -, visited⟩ := visit_due cfg due
      rw [detailed.touchDetails active] at idle
      have same : SameBooks s s₁ := ⟨idle.activeOrders, idle.orderDetails, idle.history⟩
      have grows : s.activeOrders ⊆ s₁.activeOrders := fun i member => idle.activeOrders ▸ member
      rw [visited]
      have hedges : (Strategy.hedge cfg cause (s.details orderId) qty s₁).Ends
          (fun s' => Inv s' ∧ s₁.activeOrders ⊆ s'.activeOrders) Failed := by
        unfold Strategy.hedge
        split
        next affordable =>
          rw [idle.orderManager] at affordable
          exact place s₁ cause qty same (frame s s₁ same before) due affordable
        next => exact ⟨decline s₁ cause qty (frame s s₁ same before), List.Subset.refl _⟩
      exact hedges.bind fun s' kept =>
        ⟨frame s' _ ⟨rfl, rfl, rfl⟩ kept.1, List.Subset.trans grows kept.2⟩

end Rules

end GridStrategy

end SpotGridBot.Strategy
