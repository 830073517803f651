import SpotGridBot.Strategy.GridStrategy
import SpotGridBot.Lib.Components

namespace SpotGridBot.Strategy
open Utils SpotGridBot.Core Runs

inductive Entry where
  | hedged (side : Side) (qty : ℚ)
  | declined (qty : ℚ)
  | left (order : Order)
  | reported (status : OrderStatus) (filled : ℚ)
deriving DecidableEq

structure Account where
  order : Order
  details : OrderDetails
  known : ℚ
  tracked : Bool
  ledger : List Entry

inductive AccountEvent where
  | idle
  | pass (balance : Currency → ℚ)
  | report (status : OrderStatus) (filled : ℚ)

def Closed (order : Order) : Prop := order.status ∈ [.filled, .canceled, .rejected]

instance (order : Order) : Decidable (Closed order) :=
  inferInstanceAs (Decidable (order.status ∈ [.filled, .canceled, .rejected]))

namespace Account
variable (cfg : GridConfig) (balance : Currency → ℚ) (a : Account)

def write (entries : List Entry) : Account := { a with ledger := a.ledger ++ entries }

def hedge (qty : ℚ) : Account :=
  a.write [if Affordable cfg balance a.details qty then .hedged (hedgeSide a.details) qty
    else .declined qty]

def NewFill : Prop :=
  a.order.status = .partiallyFilled ∧ Utils.round (a.order.filled - a.known) ≠ 0

instance : Decidable a.NewFill := inferInstanceAs (Decidable (_ ∧ _))

def visit : Account :=
  if a.order.status = .filled then a.hedge cfg balance a.details.qty
  else if a.NewFill then
    { a with known := a.order.filled }.hedge cfg balance (a.order.filled - a.known)
  else a

def leave : Account :=
  { order := a.order, details := ⟨.invalid, 0, 0⟩, known := 0, tracked := false
    ledger := a.ledger ++ [.left a.order] }

def pass : Account :=
  if Closed a.order then (a.visit cfg balance).leave
  else a.visit cfg balance

def report (status : OrderStatus) (filled : ℚ) : Account :=
  { a with order := { a.order with status, filled } }.write [.reported status filled]

def move : AccountEvent → Account
  | .idle => a
  | .pass balance => if a.tracked then a.pass cfg balance else a
  | .report status filled => a.report status filled

def Born : Prop :=
  ∃ orderId side price qty, side ≠ .invalid ∧
    a = ⟨⟨orderId, side, price, qty, 0, .new⟩, ⟨side, price, qty⟩, 0, true, []⟩

end Account

def Record.entry (orderId : OrderId) : Record → Option Entry
  | .call cause side _ qty (some newId) =>
      if cause.parent = some orderId ∧ newId ≠ "" then some (.hedged side qty) else none
  | .call _ _ _ _ none => none
  | .declined cause qty => if cause.parent = some orderId then some (.declined qty) else none
  | .left leaver order => if leaver = orderId then order.map .left else none
  | .report reported status filled =>
      if reported = orderId then some (.reported status filled) else none

def Record.places {α : Type} (orderId : OrderId) : Record α → Bool
  | .call _ _ _ _ (some newId) => newId = orderId
  | _ => false

namespace GridStrategy

section Placed
variable {α : Type} {s : GridStrategy α} {i : OrderId}

def placed (s : GridStrategy α) (orderId : OrderId) : Bool := s.history.any (Record.places orderId)

theorem placed_record {entry : Record α} (noPlacement : entry.places i = false) :
    (s.record entry).placed i = s.placed i := by
  simp [placed, record, noPlacement]

theorem placed_accept [Zero α] {cause : Cause} {newId : OrderId} {details : OrderDetails α} :
    (s.accept cause newId details).placed i = (s.placed i || decide (newId = i)) := by
  simp [placed, Record.places]

end Placed

variable (s : GridStrategy)

def ledger (orderId : OrderId) : List Entry := s.history.filterMap (Record.entry orderId)

def accountOf (orderId : OrderId) (order : Order) : Account where
  order := order
  details := s.details orderId
  known := s.knownFilled orderId
  tracked := orderId ∈ s.activeOrders
  ledger := s.ledger orderId

def account (orderId : OrderId) : Option Account :=
  if s.placed orderId then (s.orderManager.orders orderId).map (s.accountOf orderId) else none

theorem account_eq_some {orderId : OrderId} {a : Account} :
    s.account orderId = some a ↔ s.placed orderId = true ∧
      ∃ order, s.orderManager.orders orderId = some order ∧ s.accountOf orderId order = a := by
  simp [account]

theorem account_eq_none {orderId : OrderId} :
    s.account orderId = none ↔
      (s.placed orderId = true → s.orderManager.orders orderId = none) := by
  simp [account]

variable {s} {s' : GridStrategy} {i orderId : OrderId}

section Fields
variable {a : Account} (here : s.account i = some a)
include here

theorem account_placed : s.placed i = true := (s.account_eq_some.mp here).1

theorem account_order : s.orderManager.orders i = some a.order := by
  obtain ⟨-, order, cached, rfl⟩ := s.account_eq_some.mp here
  exact cached

theorem account_details : a.details = s.details i := by
  obtain ⟨-, order, -, rfl⟩ := s.account_eq_some.mp here
  rfl

theorem account_known : a.known = s.knownFilled i := by
  obtain ⟨-, order, -, rfl⟩ := s.account_eq_some.mp here
  rfl

theorem account_tracked : a.tracked = true ↔ i ∈ s.activeOrders := by
  obtain ⟨-, order, -, rfl⟩ := s.account_eq_some.mp here
  simp [accountOf]

end Fields

theorem account_map (f : Account → Account) (samePlaced : s'.placed i = s.placed i)
    (sameOrder : s'.orderManager.orders i = s.orderManager.orders i)
    (changed : ∀ order, s'.accountOf i order = f (s.accountOf i order)) :
    s'.account i = (s.account i).map f := by
  simp only [account, samePlaced, sameOrder]
  cases s.placed i with
  | false => rfl
  | true => simp [Option.map_map, funext changed, Function.comp_def]

theorem account_same (samePlaced : s'.placed i = s.placed i)
    (sameOrder : s'.orderManager.orders i = s.orderManager.orders i)
    (same : ∀ order, s'.accountOf i order = s.accountOf i order) :
    s'.account i = s.account i := by
  simpa using account_map id samePlaced sameOrder same

@[simp] theorem account_touchDetails : (s.touchDetails orderId).account i = s.account i := by
  refine account_same rfl rfl fun order => ?_
  simp only [accountOf, details_touchDetails]
  rfl

@[simp] theorem account_markForRemoval : (s.markForRemoval orderId).account i = s.account i := rfl

theorem account_setKnown (filled : ℚ) :
    (s.setKnown orderId filled).account i =
      (s.account i).map fun a => if i = orderId then { a with known := filled } else a := by
  refine account_map _ rfl rfl fun order => ?_
  simp only [accountOf, knownFilled_setKnown]
  split <;> rfl

theorem ledger_append (s : GridStrategy) (entry : Record)
    (appended : s'.history = s.history ++ [entry]) :
    s'.ledger i = s.ledger i ++ (entry.entry i).toList := by
  simp only [ledger, appended, List.filterMap_append]
  cases here : entry.entry i with
  | none => simp [here]
  | some => simp [here]

theorem account_record {entry : Record} (noPlacement : entry.places i = false) :
    (s.record entry).account i = (s.account i).map fun a => a.write (entry.entry i).toList := by
  refine account_map _ (placed_record noPlacement) rfl fun order => ?_
  simp only [accountOf, ledger_append s entry (rfl : (s.record entry).history = _)]
  rfl

structure WellFormed (s : GridStrategy) : Prop where
  nodup : s.activeOrders.Nodup
  tracked : ∀ i ∈ s.activeOrders, s.placed i = true
  placed : ∀ i, s.placed i = true → (s.orderManager.orders i).isSome
  mentioned : ∀ i, s.ledger i ≠ [] → (s.orderManager.orders i).isSome
  known : ∀ i, s.knownFills i ≠ none → (s.orderManager.orders i).isSome

section Accept
variable {cause : Cause} {newId : OrderId} {details : OrderDetails}

theorem account_accept_other (other : i ≠ newId) (nonempty : newId ≠ "") :
    (s.accept cause newId details).account i = (s.account i).map fun a =>
      a.write (if cause.parent = some i then [.hedged details.side details.qty] else []) := by
  refine account_map _ ?_ ?_ fun order => ?_
  · simp [placed_accept, Ne.symm other]
  · simp [other]
  · have appended : (s.accept cause newId details).ledger i = s.ledger i ++
        (if cause.parent = some i then [.hedged details.side details.qty] else []) := by
      rw [ledger_append s (.call cause details.side details.price details.qty (some newId)) rfl]
      by_cases here : cause.parent = some i
      · simp [Record.entry, here, nonempty]
      · simp [Record.entry, here]
    have tracked : decide (i ∈ (s.accept cause newId details).activeOrders) =
        decide (i ∈ s.activeOrders) := by
      simp [other]
    simp only [accountOf, appended, tracked, GridStrategy.details, knownFilled]
    simp [other, Account.write]

theorem account_accept_same (wf : s.WellFormed) (fresh : s.orderManager.orders newId = none)
    (notOwn : cause.parent ≠ some newId) :
    (s.accept cause newId details).account newId = some
      ⟨⟨newId, details.side, details.price, details.qty, 0, .new⟩, details, 0, true, []⟩ := by
  have unmentioned : s.ledger newId = [] := by
    by_contra mentioned
    simpa [fresh] using wf.mentioned newId mentioned
  have unknown : s.knownFills newId = none := by
    by_contra known
    simpa [fresh] using wf.known newId known
  have empty : (s.accept cause newId details).ledger newId = [] := by
    rw [ledger_append s (.call cause details.side details.price details.qty (some newId)) rfl]
    simp [unmentioned, Record.entry, notOwn]
  rw [account_eq_some]
  refine ⟨by simp [placed_accept], ⟨newId, details.side, details.price, details.qty, 0, .new⟩,
    by simp, ?_⟩
  simp only [accountOf, empty, GridStrategy.details, knownFilled]
  simp [unknown]

end Accept

end GridStrategy

end SpotGridBot.Strategy
