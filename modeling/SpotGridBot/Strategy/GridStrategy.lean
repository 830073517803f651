import SpotGridBot.Core.OrderManager
import SpotGridBot.Lib.Outcome
import SpotGridBot.Lib.Runs

/-!
# The grid strategy

`Start` and `CheckFilledOrders` on the cache of the order manager, over any numbers that stand for
`double`. `replies` are the exchange's answers to the placements of the running call, `history` is
what happened so far; no function of the source reads either. A pass visits the ids tracked when it
starts; what becomes of it when the vector grows meanwhile is in `Strategy.Storage`.
-/

namespace SpotGridBot.Strategy
open Utils SpotGridBot.Core

/-- `UTILS::Round`, and what an `if` makes of a number. -/
class Doubles (α : Type) where
  round : α → α
  isTrue : α → Bool

instance : Doubles ℚ where
  round value := Utils.round value
  isTrue value := decide (value ≠ 0)

instance natCastFloat : NatCast Float := ⟨Float.ofNat⟩

def floor (value : Float) : Float :=
  if value < 9007199254740992 then value.toUInt64.toFloat else value

instance : Doubles Float where
  round value :=
    let magnitude := if value < 0 then -value else value
    let rounded := floor (magnitude * 10000 + 0.5) / 10000
    if value < 0 then -rounded else rounded
  isTrue value := !(value == 0)

@[simp] theorem round_rat (value : ℚ) : Doubles.round value = Utils.round value := rfl

@[simp] theorem isTrue_rat (value : ℚ) : Doubles.isTrue value = true ↔ value ≠ 0 :=
  decide_eq_true_iff

structure GridConfig (α : Type := ℚ) where
  instrument : CurrencyPair
  basePrice : α
  levelsBelow : ℤ
  levelsAbove : ℤ
  stepPercent : α
  percentOrderQty : α
  maxPosition : α

structure OrderDetails (α : Type := ℚ) where
  side : Side
  price : α
  qty : α
deriving DecidableEq

inductive Cause where
  | grid
  | filled (parent : OrderId)
  | partialFill (parent : OrderId)
deriving DecidableEq

def Cause.parent : Cause → Option OrderId
  | .grid => none
  | .filled parent => some parent
  | .partialFill parent => some parent

inductive Record (α : Type := ℚ) where
  -- A call of `PlaceLimitOrder` and the id it returned; `none` when it threw.
  | call (cause : Cause) (side : Side) (price qty : α) (result : Option OrderId)
  | declined (cause : Cause) (qty : α)
  | left (orderId : OrderId) (order : Option (Order α))
  -- An update of an order the cache holds.
  | report (orderId : OrderId) (status : OrderStatus) (filled : α)
deriving DecidableEq

structure GridStrategy (α : Type := ℚ) where
  orderManager : OrderManager α
  activeOrders : List OrderId := []
  orderDetails : OrderId → Option (OrderDetails α) := fun _ => none
  knownFills : OrderId → Option α := fun _ => none
  -- The local of `CheckFilledOrders`.
  toRemove : List OrderId := []
  replies : List Reply := []
  history : List (Record α) := []

namespace GridStrategy
variable {α : Type} [Zero α] [One α] [NatCast α] [Add α] [Sub α] [Mul α] [LE α] [LT α]
  [DecidableLE α] [DecidableLT α] [Doubles α] (cfg : GridConfig α) (s : GridStrategy α)

def record (entry : Record α) : GridStrategy α := { s with history := s.history ++ [entry] }

def details (orderId : OrderId) : OrderDetails α := (s.orderDetails orderId).getD ⟨.invalid, 0, 0⟩

def knownFilled (orderId : OrderId) : α := (s.knownFills orderId).getD 0

/-- `m_orderDetails[orderId]` inserts a default value for an id it does not hold. -/
def touchDetails (orderId : OrderId) : GridStrategy α :=
  { s with orderDetails := Function.update s.orderDetails orderId (some (s.details orderId)) }

def setKnown (orderId : OrderId) (filled : α) : GridStrategy α :=
  { s with knownFills := Function.update s.knownFills orderId (some filled) }

def markForRemoval (orderId : OrderId) : GridStrategy α :=
  { s with toRemove := s.toRemove ++ [orderId] }

def track (newId : OrderId) (details : OrderDetails α) : GridStrategy α :=
  { s with
    activeOrders := s.activeOrders ++ [newId]
    orderDetails := Function.update s.orderDetails newId (some details) }

/-- A placement, answered by the next reply, and the two statements that track the id it returns. -/
def placeAndTrack (cause : Cause) (side : Side) (price qty : α) : Outcome (GridStrategy α) :=
  let reply := s.replies.head?.getD .lost
  let s := { s with replies := s.replies.tail }
  match s.orderManager.placeLimitOrder side price qty reply with
  | none => .thrown (s.record (.call cause side price qty none))
  | some (newId, orderManager) =>
      let s := { s with orderManager := orderManager }
      .done ((s.record (.call cause side price qty (some newId))).track newId ⟨side, price, qty⟩)

def start : Outcome (GridStrategy α) :=
  let levels (n : ℤ) : List α := (List.range n.toNat).map fun i : ℕ => (i : α) + 1
  let below (s : GridStrategy α) (i : α) :=
    s.placeAndTrack .grid .buy (cfg.basePrice * (1 - cfg.stepPercent * i)) cfg.percentOrderQty
  let above (s : GridStrategy α) (i : α) :=
    s.placeAndTrack .grid .sell (cfg.basePrice * (1 + cfg.stepPercent * i)) cfg.percentOrderQty
  (Outcome.forEach below s (levels cfg.levelsBelow)).bind fun s =>
    Outcome.forEach above s (levels cfg.levelsAbove)

def hedgeFilled (orderId : OrderId) : Outcome (GridStrategy α) :=
  let s := s.touchDetails orderId
  let details := s.details orderId
  if details.side = .buy then
    let sellPrice := details.price * (1 + cfg.stepPercent)
    let base := s.orderManager.getBalance cfg.instrument.baseCCY
    if base > Doubles.round cfg.maxPosition then
      .done (s.record (.declined (.filled orderId) details.qty))
    else s.placeAndTrack (.filled orderId) .sell sellPrice details.qty
  else
    let buyPrice := details.price * (1 - cfg.stepPercent)
    let quote := s.orderManager.getBalance cfg.instrument.quoteCCY
    let cost := buyPrice * details.qty
    if Doubles.round quote < cost then .done (s.record (.declined (.filled orderId) details.qty))
    else s.placeAndTrack (.filled orderId) .buy buyPrice details.qty

def hedgePartial (orderId : OrderId) (delta : α) : Outcome (GridStrategy α) :=
  let s := s.touchDetails orderId
  let details := s.details orderId
  if details.side = .buy then
    let sellPrice := details.price * (1 + cfg.stepPercent)
    let base := s.orderManager.getBalance cfg.instrument.baseCCY
    if base ≤ Doubles.round cfg.maxPosition then
      s.placeAndTrack (.partialFill orderId) .sell sellPrice delta
    else .done (s.record (.declined (.partialFill orderId) delta))
  else
    let buyPrice := details.price * (1 - cfg.stepPercent)
    let quote := s.orderManager.getBalance cfg.instrument.quoteCCY
    let cost := buyPrice * delta
    if Doubles.round quote ≥ cost then s.placeAndTrack (.partialFill orderId) .buy buyPrice delta
    else .done (s.record (.declined (.partialFill orderId) delta))

def visit (orderId : OrderId) : Outcome (GridStrategy α) :=
  match s.orderManager.getOrderLocal orderId with
  | none => .done s
  | some order =>
      match order.status with
      | .filled => (s.hedgeFilled cfg orderId).bind fun s => .done (s.markForRemoval orderId)
      | .partiallyFilled =>
          let knownFilled := s.knownFilled orderId
          let s := s.setKnown orderId knownFilled
          let delta := order.filled - knownFilled
          if Doubles.isTrue (Doubles.round delta) then
            (s.setKnown orderId order.filled).hedgePartial cfg orderId delta
          else .done s
      | .canceled => .done (s.markForRemoval orderId)
      | .rejected => .done (s.markForRemoval orderId)
      | .new => .done s

/-- The body of the removal loop. -/
def remove (orderId : OrderId) : GridStrategy α :=
  { s with
    activeOrders := s.activeOrders.filter (· ≠ orderId)
    orderDetails := Function.update s.orderDetails orderId none
    knownFills := Function.update s.knownFills orderId none
    history := s.history ++ [.left orderId (s.orderManager.getOrderLocal orderId)] }

def removeAll (orderIds : List OrderId) : GridStrategy α := orderIds.foldl remove s

def checkFilledOrders : Outcome (GridStrategy α) :=
  (Outcome.forEach (visit cfg) { s with toRemove := [] } s.activeOrders).bind fun s =>
    .done { s.removeAll s.toRemove with toRemove := [] }

def visits : List (GridStrategy α × OrderId) :=
  Outcome.iterations (visit cfg) { s with toRemove := [] } s.activeOrders

def report (orderId : OrderId) (status : OrderStatus) (filled : α) : GridStrategy α :=
  match s.orderManager.orders orderId with
  | none => s
  | some _ => s.record (.report orderId status filled)

omit [Zero α] [One α] [NatCast α] [Add α] [Sub α] [Mul α] [LE α] [LT α] [DecidableLE α]
  [DecidableLT α] [Doubles α] in
@[simp] theorem report_orderManager (orderId : OrderId) (status : OrderStatus) (filled : α) :
    (s.report orderId status filled).orderManager = s.orderManager := by
  unfold report
  cases s.orderManager.orders orderId with
  | _ => rfl

end GridStrategy

inductive Event (α : Type := ℚ) where
  | start (replies : List Reply)
  | checkFilledOrders (replies : List Reply)
  | updateOrder (orderId : OrderId) (status : OrderStatus) (filled : α)
  | syncOrder (orderId : OrderId) (side : Side) (price quantity : α) (status : OrderStatus)
      (filled : α)
  | setBalance (currency : Currency) (amount : α)

/-- The thread that runs the passes catches what a pass throws and goes on. -/
def step {α : Type} [Zero α] [One α] [NatCast α] [Add α] [Sub α] [Mul α] [LE α] [LT α]
    [DecidableLE α] [DecidableLT α] [Doubles α] (cfg : GridConfig α) (s : GridStrategy α) :
    Event α → GridStrategy α
  | .start replies => (GridStrategy.start cfg { s with replies := replies }).state
  | .checkFilledOrders replies =>
      (GridStrategy.checkFilledOrders cfg { s with replies := replies }).state
  | .updateOrder orderId status filled =>
      let reported := s.report orderId status filled
      { reported with orderManager := s.orderManager.updateOrder orderId status filled }
  | .syncOrder orderId side price quantity status filled =>
      let reported := s.report orderId status filled
      { reported with
        orderManager := s.orderManager.syncOrder orderId side price quantity status filled }
  | .setBalance currency amount =>
      { s with orderManager := s.orderManager.setBalance currency amount }

def ladder (percentOrderQty : ℚ) : GridConfig where
  instrument := ⟨Currency.eur, Currency.usd⟩
  basePrice := 100
  levelsBelow := 1
  levelsAbove := 0
  stepPercent := 1 / 100
  percentOrderQty := percentOrderQty
  maxPosition := 1000

def emptyManager : OrderManager := { orders := fun _ => none, balance := fun _ => 0 }

namespace GridStrategy
variable {α : Type} [Zero α] (s : GridStrategy α) {i orderId : OrderId}

@[simp] theorem details_touchDetails : (s.touchDetails orderId).details i = s.details i := by
  by_cases here : i = orderId
  · subst here
    simp [touchDetails, details]
  · simp [touchDetails, details, here]

@[simp] theorem orderManager_touchDetails :
    (s.touchDetails orderId).orderManager = s.orderManager := rfl

theorem knownFilled_setKnown (filled : α) :
    (s.setKnown orderId filled).knownFilled i =
      if i = orderId then filled else s.knownFilled i := by
  by_cases here : i = orderId
  · subst here
    simp [setKnown, knownFilled]
  · simp [setKnown, knownFilled, here]

def accept (cause : Cause) (newId : OrderId) (details : OrderDetails α) : GridStrategy α :=
  let order : Order α := ⟨newId, details.side, details.price, details.qty, 0, .new⟩
  let s := { s with replies := s.replies.tail, orderManager := s.orderManager.store newId order }
  (s.record (.call cause details.side details.price details.qty (some newId))).track newId details

def refuse (cause : Cause) (details : OrderDetails α) : GridStrategy α :=
  let s := { s with replies := s.replies.tail }
  (s.record (.call cause details.side details.price details.qty (some ""))).track "" details

def abort (cause : Cause) (details : OrderDetails α) : GridStrategy α :=
  let s := { s with replies := s.replies.tail }
  s.record (.call cause details.side details.price details.qty none)

section Fields
variable (cause : Cause) (newId : OrderId) (placed : OrderDetails α)

@[simp] theorem accept_orders : (s.accept cause newId placed).orderManager.orders =
    Function.update s.orderManager.orders newId
      (some ⟨newId, placed.side, placed.price, placed.qty, 0, .new⟩) := rfl

@[simp] theorem accept_activeOrders :
    (s.accept cause newId placed).activeOrders = s.activeOrders ++ [newId] := rfl

@[simp] theorem accept_orderDetails : (s.accept cause newId placed).orderDetails =
    Function.update s.orderDetails newId (some placed) := rfl

@[simp] theorem accept_knownFills : (s.accept cause newId placed).knownFills = s.knownFills := rfl

@[simp] theorem accept_toRemove : (s.accept cause newId placed).toRemove = s.toRemove := rfl

@[simp] theorem accept_replies : (s.accept cause newId placed).replies = s.replies.tail := rfl

@[simp] theorem accept_history : (s.accept cause newId placed).history =
    s.history ++ [.call cause placed.side placed.price placed.qty (some newId)] := rfl

omit [Zero α] in
@[simp] theorem refuse_activeOrders :
    (s.refuse cause placed).activeOrders = s.activeOrders ++ [""] := rfl

omit [Zero α] in
@[simp] theorem refuse_orderDetails : (s.refuse cause placed).orderDetails =
    Function.update s.orderDetails "" (some placed) := rfl

theorem accept_isSome (present : (s.orderManager.orders i).isSome) :
    ((s.accept cause newId placed).orderManager.orders i).isSome := by
  by_cases here : i = newId
  · simp [here]
  · simpa [here] using present

end Fields

def nextReply : Reply := s.replies.head?.getD .lost

theorem placeAndTrack_cases (cause : Cause) (side : Side) (price qty : α) :
    (s.nextReply.throws = true ∧ s.nextReply.acceptedId = none ∧
      s.placeAndTrack cause side price qty = .thrown (s.abort cause ⟨side, price, qty⟩)) ∨
    (s.nextReply.throws = false ∧ s.nextReply.acceptedId = none ∧
      s.placeAndTrack cause side price qty = .done (s.refuse cause ⟨side, price, qty⟩)) ∨
    ∃ newId, s.nextReply.throws = false ∧ s.nextReply.acceptedId = some newId ∧
      s.placeAndTrack cause side price qty = .done (s.accept cause newId ⟨side, price, qty⟩) := by
  have outcomes := s.orderManager.placeLimitOrder_cases side price qty s.nextReply
  simp only [nextReply] at outcomes ⊢
  rcases outcomes with ⟨throws, none, threw⟩ | ⟨answers, none, refused⟩ |
    ⟨newId, answers, accepted, placed⟩
  · exact .inl ⟨throws, none, by simp only [placeAndTrack, threw]; rfl⟩
  · exact .inr (.inl ⟨answers, none, by simp only [placeAndTrack, refused]; rfl⟩)
  · exact .inr (.inr ⟨newId, answers, accepted, by simp only [placeAndTrack, placed]; rfl⟩)

theorem placeAndTrack_accepted {newId : OrderId} (accepted : s.nextReply.acceptedId = some newId)
    (cause : Cause) (side : Side) (price qty : α) :
    s.placeAndTrack cause side price qty = .done (s.accept cause newId ⟨side, price, qty⟩) := by
  rcases s.placeAndTrack_cases cause side price qty with
    ⟨-, none, -⟩ | ⟨-, none, -⟩ | ⟨newId', -, accepted', placed⟩
  · exact absurd (none.symm.trans accepted) (by simp)
  · exact absurd (none.symm.trans accepted) (by simp)
  · obtain rfl : newId' = newId := Option.some.inj (accepted'.symm.trans accepted)
    exact placed

end GridStrategy

section Visit
variable {α : Type} [Zero α] [One α] [Add α] [Sub α] [Mul α] [LE α] [LT α] [DecidableLE α]
  [DecidableLT α] [Doubles α] (cfg : GridConfig α) {s : GridStrategy α} {orderId : OrderId}
  {order : Order α}

theorem visit_unknown (unknown : s.orderManager.orders orderId = none) :
    s.visit cfg orderId = .done s := by
  simp [GridStrategy.visit, OrderManager.getOrderLocal, unknown]

theorem visit_dead (cached : s.orderManager.orders orderId = some order)
    (dead : order.status = .canceled ∨ order.status = .rejected) :
    s.visit cfg orderId = .done (s.markForRemoval orderId) := by
  rcases dead with dead | dead <;>
    simp [GridStrategy.visit, OrderManager.getOrderLocal, cached, dead]

theorem visit_new (cached : s.orderManager.orders orderId = some order)
    (new : order.status = .new) : s.visit cfg orderId = .done s := by
  simp [GridStrategy.visit, OrderManager.getOrderLocal, cached, new]

theorem visit_hedgeFilled (cached : s.orderManager.orders orderId = some order)
    (filled : order.status = .filled) :
    s.visit cfg orderId =
      (s.hedgeFilled cfg orderId).bind fun s => .done (s.markForRemoval orderId) := by
  simp [GridStrategy.visit, OrderManager.getOrderLocal, cached, filled]

theorem visit_hedgePartial (cached : s.orderManager.orders orderId = some order)
    (partiallyFilled : order.status = .partiallyFilled)
    (newFill : Doubles.isTrue (Doubles.round (order.filled - s.knownFilled orderId)) = true) :
    s.visit cfg orderId = (s.setKnown orderId order.filled).hedgePartial cfg orderId
      (order.filled - s.knownFilled orderId) := by
  simp [GridStrategy.visit, OrderManager.getOrderLocal, cached, partiallyFilled, newFill,
    GridStrategy.setKnown]

theorem visit_seen (cached : s.orderManager.orders orderId = some order)
    (partiallyFilled : order.status = .partiallyFilled)
    (seen : Doubles.isTrue (Doubles.round (order.filled - s.knownFilled orderId)) = false) :
    s.visit cfg orderId = .done (s.setKnown orderId (s.knownFilled orderId)) := by
  simp [GridStrategy.visit, OrderManager.getOrderLocal, cached, partiallyFilled, seen]

end Visit

def hedgeSide {α : Type} (details : OrderDetails α) : Side :=
  if details.side = .buy then .sell else .buy

def hedgePrice {α : Type} [One α] [Add α] [Sub α] [Mul α] (cfg : GridConfig α)
    (details : OrderDetails α) : α :=
  details.price * if details.side = .buy then 1 + cfg.stepPercent else 1 - cfg.stepPercent

section Hedge
variable (cfg : GridConfig)

def Affordable (balance : Currency → ℚ) (details : OrderDetails) (qty : ℚ) : Prop :=
  if details.side = .buy then balance cfg.instrument.baseCCY ≤ Utils.round cfg.maxPosition
  else details.price * (1 - cfg.stepPercent) * qty ≤ Utils.round (balance cfg.instrument.quoteCCY)

instance (balance : Currency → ℚ) (details : OrderDetails) (qty : ℚ) :
    Decidable (Affordable cfg balance details qty) :=
  inferInstanceAs (Decidable (if details.side = .buy then _ ≤ _ else _ ≤ _))

def hedge (cause : Cause) (details : OrderDetails) (qty : ℚ) (s : GridStrategy) :
    Outcome GridStrategy :=
  if Affordable cfg s.orderManager.balance details qty then
    s.placeAndTrack cause (hedgeSide details) (hedgePrice cfg details) qty
  else .done (s.record (.declined cause qty))

theorem hedgeFilled_eq (s : GridStrategy) (orderId : OrderId) :
    s.hedgeFilled cfg orderId =
      hedge cfg (.filled orderId) (s.details orderId) (s.details orderId).qty
        (s.touchDetails orderId) := by
  have same : (s.touchDetails orderId).details orderId = s.details orderId := by
    simp [GridStrategy.touchDetails, GridStrategy.details]
  simp only [GridStrategy.hedgeFilled, hedge, same, Affordable, hedgeSide, hedgePrice,
    OrderManager.getBalance, round_rat, gt_iff_lt, ← not_le, ite_not]
  split_ifs <;> rfl

theorem hedgePartial_eq (s : GridStrategy) (orderId : OrderId) (delta : ℚ) :
    s.hedgePartial cfg orderId delta =
      hedge cfg (.partialFill orderId) (s.details orderId) delta (s.touchDetails orderId) := by
  have same : (s.touchDetails orderId).details orderId = s.details orderId := by
    simp [GridStrategy.touchDetails, GridStrategy.details]
  simp only [GridStrategy.hedgePartial, hedge, same, Affordable, hedgeSide, hedgePrice,
    OrderManager.getBalance, round_rat]
  split_ifs <;> rfl

section Visit
variable {s : GridStrategy} {orderId : OrderId} {order : Order}

theorem visit_filled (cached : s.orderManager.orders orderId = some order)
    (filled : order.status = .filled) :
    s.visit cfg orderId =
      (hedge cfg (.filled orderId) (s.details orderId) (s.details orderId).qty
        (s.touchDetails orderId)).bind fun s => .done (s.markForRemoval orderId) := by
  rw [visit_hedgeFilled cfg cached filled, hedgeFilled_eq]

theorem visit_newFill (cached : s.orderManager.orders orderId = some order)
    (partiallyFilled : order.status = .partiallyFilled)
    (newFill : Utils.round (order.filled - s.knownFilled orderId) ≠ 0) :
    s.visit cfg orderId =
      hedge cfg (.partialFill orderId) (s.details orderId) (order.filled - s.knownFilled orderId)
        ((s.setKnown orderId order.filled).touchDetails orderId) := by
  rw [visit_hedgePartial cfg cached partiallyFilled ((isTrue_rat _).mpr newFill), hedgePartial_eq]
  rfl

theorem visit_noNewFill (cached : s.orderManager.orders orderId = some order)
    (partiallyFilled : order.status = .partiallyFilled)
    (noNewFill : Utils.round (order.filled - s.knownFilled orderId) = 0) :
    s.visit cfg orderId = .done (s.setKnown orderId (s.knownFilled orderId)) := by
  apply visit_seen cfg cached partiallyFilled
  rw [Bool.eq_false_iff, ne_eq, isTrue_rat, round_rat, noNewFill]
  simp

end Visit

end Hedge

end SpotGridBot.Strategy
