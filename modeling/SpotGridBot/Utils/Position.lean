import SpotGridBot.Utils.FixTypes
import SpotGridBot.Lib.Runs

/-!
# Positions

The quantity of a position is open, pending or filled. Sums and products wrap at 64 bits, also those
of prices; a product with `QUANTITY_DECIMAL_FACTOR` is unsigned.
-/

namespace SpotGridBot.Utils
open Runs

def int64 (x : ℤ) : ℤ := (x + 2 ^ 63) % 2 ^ 64 - 2 ^ 63
def uint64 (x : ℤ) : ℤ := x % 2 ^ 64

theorem int64_eq {x : ℤ} (lower : -2 ^ 63 ≤ x) (upper : x < 2 ^ 63) : int64 x = x := by
  unfold int64
  omega

inductive QtyState where
  | qsOpen
  | qsPending
  | qsFilled
deriving DecidableEq, Repr

structure Position where
  instrument : CurrencyPair
  dealtCurrency : Currency
  side : Side
  price : ℤ
  quantities : QtyState → ℤ
  pnl : ℤ

namespace Position
open QtyState

def create (instrument : CurrencyPair) (dealtCurrency : Currency) (side : Side)
    (price openQuantity : ℤ) : Position where
  instrument := instrument
  dealtCurrency :=
    if dealtCurrency = instrument.baseCCY ∨ dealtCurrency = instrument.quoteCCY then dealtCurrency
    else Currency.invalid
  side := side
  price := price
  quantities
    | qsOpen => openQuantity
    | qsPending => 0
    | qsFilled => 0
  pnl := 0

def amount (quantity price : ℤ) : ℤ := int64 (uint64 (int64 (price * quantity)) / 100)

def unitPrice (quantity amount : ℤ) : ℤ := int64 (uint64 (amount * 100) / uint64 quantity)

variable (p : Position)

def Long : Prop := p.side = .buy ↔ p.dealtCurrency = p.instrument.baseCCY

instance : Decidable p.Long := inferInstanceAs (Decidable (_ ↔ _))

def sign (value : ℤ) : ℤ := if p.Long then value else int64 (-value)

def quantity : ℤ := int64 (p.quantities qsOpen + p.quantities qsPending + p.quantities qsFilled)

def setQuantity (state : QtyState) (qty : ℤ) : Position :=
  { p with quantities := Function.update p.quantities state qty }

@[simp] theorem quantities_setQuantity (state : QtyState) (qty : ℤ) :
    (p.setQuantity state qty).quantities = Function.update p.quantities state qty := rfl

def moveQuantity (qty : ℤ) (qsFrom qsTo : QtyState) : Bool × Position :=
  if qsFrom ≠ qsTo ∧ p.quantities qsFrom ≥ qty then
    let p := p.setQuantity qsFrom (int64 (p.quantities qsFrom - qty))
    (true, p.setQuantity qsTo (int64 (p.quantities qsTo + qty)))
  else (false, p)

def order (qty : ℤ) : Bool × Position :=
  if qty > 0 then p.moveQuantity qty qsOpen qsPending else (false, p)

/-- The profit that a successful call stores, if the caller asks for it. -/
def fillFrom (qsFrom : QtyState) (qty price : ℤ) : Option ℤ × Position :=
  if qty > 0 ∧ price > 0 then
    match p.moveQuantity qty qsFrom qsFilled with
    | (true, p) =>
        let amt := amount qty (p.sign (int64 (p.price - price)))
        (some amt, { p with pnl := int64 (p.pnl + amt) })
    | (false, p) => (none, p)
  else (none, p)

def fill (qty price : ℤ) : Option ℤ × Position := p.fillFrom qsPending qty price
def directFill (qty price : ℤ) : Option ℤ × Position := p.fillFrom qsOpen qty price

def reject (qty : ℤ) : Bool × Position :=
  if qty > 0 then p.moveQuantity qty qsPending qsOpen else (false, p)

def canceledFill (qty price : ℤ) : Bool × Position :=
  let oldOpenQty := p.quantities qsOpen
  if qty > 0 ∧ price > 0 then
    match p.moveQuantity qty qsPending qsOpen with
    | (true, p) =>
        let value := int64 (oldOpenQty * p.price + qty * price)
        (true, { p with price := int64 (value.tdiv (int64 (oldOpenQty + qty))) })
    | (false, p) => (false, p)
  else (false, p)

def canceledReject (qty : ℤ) : Bool × Position :=
  if qty > 0 ∧ qty ≤ p.quantities qsPending then
    (true, p.setQuantity qsPending (int64 (p.quantities qsPending - qty)))
  else (false, p)

def cancel (revertFilled : Bool) : Position :=
  let p := if revertFilled then { p with side := p.side.reverse } else p
  if revertFilled ∧ p.quantities qsFilled > 0 then
    let p := { p with
      price := int64 (p.price + p.sign (unitPrice (p.quantities qsFilled) p.pnl))
      pnl := 0 }
    (p.setQuantity qsOpen (p.quantities qsFilled)).setQuantity qsFilled 0
  else p.setQuantity qsOpen 0

def cancelOpenQty (qty : ℤ) (allOrNothing : Bool) : ℤ × Position :=
  if qty < 0 then (0, p)
  else
    let qty :=
      if qty = 0 ∨ !allOrNothing ∧ qty > p.quantities qsOpen then p.quantities qsOpen else qty
    if qty ≤ p.quantities qsOpen then
      (qty, p.setQuantity qsOpen (int64 (p.quantities qsOpen - qty)))
    else (0, p)

def skim : Position × Position :=
  ((p.setQuantity qsOpen 0).setQuantity qsPending 0, { p.setQuantity qsFilled 0 with pnl := 0 })

/-- `DblToCpip` of the average in `double`; each operation rounds. -/
def raisedPrice (reg : Registry) (price qty : ℤ) : ℤ :=
  let cpipFactor := reg.nearest (reg.cpipFactor p.instrument)
  let decimalFactor :=
    if p.instrument.IsFX then quantityDecimalFactor else quantityDecimalFactorCrypto
  let cpipToDbl (cpip : ℤ) := reg.nearest (reg.nearest cpip / cpipFactor)
  let qtyToDouble (qty : ℤ) := reg.nearest (reg.nearest qty / decimalFactor)
  let value := reg.nearest
    (reg.nearest (cpipToDbl p.price * qtyToDouble (p.quantities qsOpen)) +
      reg.nearest (cpipToDbl price * qtyToDouble qty))
  let total := qtyToDouble (int64 (p.quantities qsOpen + qty))
  llround (reg.nearest (reg.nearest (value / total) * cpipFactor))

def addOpenQuantity (reg : Registry) (side : Side) (price qty : ℤ) : Bool × Position :=
  if side = .invalid ∨ price ≤ 0 then (false, p)
  else if qty ≤ 0 then (qty == 0, p)
  else if side ≠ p.side ∧ p.quantity > 0 then (false, p)
  else
    let p' := { p with price := p.raisedPrice reg price qty }
    (true, p'.setQuantity qsOpen (int64 (p.quantities qsOpen + qty)))

def reduceOpenQuantity (qty : ℤ) : Bool × Position :=
  if qty < 0 ∨ qty > p.quantities qsOpen then (false, p)
  else (true, p.setQuantity qsOpen (int64 (p.quantities qsOpen - qty)))

inductive Operation where
  | order (qty : ℤ)
  | fill (qty price : ℤ)
  | directFill (qty price : ℤ)
  | reject (qty : ℤ)
  | canceledFill (qty price : ℤ)
  | canceledReject (qty : ℤ)
  | cancel (revertFilled : Bool)
  | cancelOpenQty (qty : ℤ) (allOrNothing : Bool)
  | addOpenQuantity (side : Side) (price qty : ℤ)
  | reduceOpenQuantity (qty : ℤ)
  | skim

inductive Result where
  | flag (ok : Bool)
  | profit (stored : Option ℤ)
  | canceled (qty : ℤ)
  | skimmed (position : Position)
  | nothing

def Result.Refused : Result → Prop
  | .flag ok => ok = false
  | .profit stored => stored = none
  | .canceled qty => qty = 0
  | .skimmed _ => False
  | .nothing => False

def perform (reg : Registry) (p : Position) : Operation → Result × Position
  | .order qty => (p.order qty).map .flag id
  | .fill qty price => (p.fill qty price).map .profit id
  | .directFill qty price => (p.directFill qty price).map .profit id
  | .reject qty => (p.reject qty).map .flag id
  | .canceledFill qty price => (p.canceledFill qty price).map .flag id
  | .canceledReject qty => (p.canceledReject qty).map .flag id
  | .cancel revertFilled => (.nothing, p.cancel revertFilled)
  | .cancelOpenQty qty allOrNothing => (p.cancelOpenQty qty allOrNothing).map .canceled id
  | .addOpenQuantity side price qty => (p.addOpenQuantity reg side price qty).map .flag id
  | .reduceOpenQuantity qty => (p.reduceOpenQuantity qty).map .flag id
  | .skim => p.skim.map .skimmed id

def step (reg : Registry) (p : Position) (op : Operation) : Position := (p.perform reg op).2

def total : ℤ := p.quantities qsOpen + p.quantities qsPending + p.quantities qsFilled

def NonNegative : Prop := ∀ state, 0 ≤ p.quantities state

def change : Operation → Result → ℤ
  | .canceledReject qty, .flag true => -qty
  | .reduceOpenQuantity qty, .flag true => -qty
  | .cancelOpenQty _ _, .canceled qty => -qty
  | .addOpenQuantity _ _ qty, .flag true => qty
  | .cancel _, _ => -p.quantities qsOpen
  | .skim, .skimmed position => -position.total
  | _, _ => 0

structure Balanced (reg : Registry) (p : Position) (op : Operation) : Prop where
  total : (p.step reg op).total = p.total + p.change op (p.perform reg op).1
  refused : (p.perform reg op).1.Refused → p.step reg op = p
  cancel : ∀ revertFilled, op = .cancel revertFilled →
    (p.step reg op).quantities qsPending = p.quantities qsPending ∧
    (p.step reg op).quantities qsOpen + (p.step reg op).quantities qsFilled =
      p.quantities qsFilled
  skim : ∀ position, (p.perform reg op).1 = .skimmed position →
    ∀ state, (p.step reg op).quantities state + position.quantities state = p.quantities state

def Fits (reg : Registry) (p : Position) : Operation → Prop
  | .addOpenQuantity side price qty =>
      p.total < 2 ^ 63 ∧
      ((p.addOpenQuantity reg side price qty).1 = true → p.total + qty < 2 ^ 63)
  | _ => p.total < 2 ^ 63

variable {p}

theorem NonNegative.le_total (nonneg : p.NonNegative) (state : QtyState) :
    p.quantities state ≤ p.total := by
  have opened := nonneg qsOpen
  have pending := nonneg qsPending
  have filled := nonneg qsFilled
  unfold total
  cases state with
  | qsOpen => omega
  | qsPending => omega
  | qsFilled => omega

theorem setQuantity_nonNegative (nonneg : p.NonNegative) (state : QtyState) {qty : ℤ}
    (kept : 0 ≤ qty) : (p.setQuantity state qty).NonNegative := by
  intro other
  rw [quantities_setQuantity]
  by_cases same : other = state
  · rw [same, Function.update_self]
    exact kept
  · rw [Function.update_of_ne same]
    exact nonneg other

theorem setQuantity_total (state : QtyState) (qty : ℤ) :
    (p.setQuantity state qty).total = p.total + (qty - p.quantities state) := by
  unfold total
  cases state with
  | qsOpen =>
      simp only [quantities_setQuantity, Function.update_self, ne_eq, reduceCtorEq,
        not_false_eq_true, Function.update_of_ne]
      omega
  | qsPending =>
      simp only [quantities_setQuantity, Function.update_self, ne_eq, reduceCtorEq,
        not_false_eq_true, Function.update_of_ne]
      omega
  | qsFilled =>
      simp only [quantities_setQuantity, Function.update_self, ne_eq, reduceCtorEq,
        not_false_eq_true, Function.update_of_ne]
      omega

theorem setQuantity_self (state : QtyState) : p.setQuantity state (p.quantities state) = p := by
  unfold setQuantity
  rw [Function.update_eq_self]

structure Accounted (p : Position) (accepted : Prop) (change : ℤ) (p' : Position) : Prop where
  nonneg : p'.NonNegative
  total : p'.total = p.total + change
  refused : ¬ accepted → p' = p

theorem Accounted.unchanged (nonneg : p.NonNegative) (accepted : Prop) :
    Accounted p accepted 0 p :=
  ⟨nonneg, (add_zero _).symm, fun _ => rfl⟩

theorem lower_accounted (nonneg : p.NonNegative) (fits : p.total < 2 ^ 63) {qty : ℤ}
    {state : QtyState} (positive : 0 ≤ qty) (enough : qty ≤ p.quantities state) {accepted : Prop}
    (accepts : accepted) :
    Accounted p accepted (-qty) (p.setQuantity state (int64 (p.quantities state - qty))) := by
  have small := nonneg.le_total state
  rw [int64_eq (by omega) (by omega)]
  refine ⟨setQuantity_nonNegative nonneg state (by omega), ?_, absurd accepts⟩
  rw [setQuantity_total]
  omega

theorem add_le_total (nonneg : p.NonNegative) {state state' : QtyState} (differ : state ≠ state') :
    p.quantities state + p.quantities state' ≤ p.total := by
  have opened := nonneg qsOpen
  have pending := nonneg qsPending
  have filled := nonneg qsFilled
  unfold total
  cases state <;> cases state' <;> first | exact absurd rfl differ | omega

theorem moveQuantity_accounted (nonneg : p.NonNegative) (fits : p.total < 2 ^ 63) {qty : ℤ}
    (positive : 0 < qty) (qsFrom qsTo : QtyState) :
    Accounted p ((p.moveQuantity qty qsFrom qsTo).1 = true) 0
      (p.moveQuantity qty qsFrom qsTo).2 := by
  unfold moveQuantity
  split_ifs with moves
  · have lowered := lower_accounted nonneg fits positive.le moves.2 trivial
    have room := add_le_total nonneg moves.1
    have enough := moves.2
    have kept := nonneg qsTo
    have other : (p.setQuantity qsFrom (int64 (p.quantities qsFrom - qty))).quantities qsTo =
        p.quantities qsTo := Function.update_of_ne moves.1.symm _ _
    simp only [other]
    rw [int64_eq (x := p.quantities qsTo + qty) (by omega) (by omega)]
    refine ⟨setQuantity_nonNegative lowered.nonneg qsTo (by omega), ?_, absurd trivial⟩
    rw [setQuantity_total, other, lowered.total]
    omega
  · exact Accounted.unchanged nonneg _

section Cases
variable (p)

theorem moveQuantity_refused (qty : ℤ) (qsFrom qsTo : QtyState)
    (refused : (p.moveQuantity qty qsFrom qsTo).1 = false) :
    (p.moveQuantity qty qsFrom qsTo).2 = p := by
  unfold moveQuantity at refused ⊢
  split_ifs at refused ⊢
  rfl

theorem order_cases (qty : ℤ) : p.order qty = (false, p) ∨
    0 < qty ∧ p.order qty = p.moveQuantity qty qsOpen qsPending := by
  unfold order
  split_ifs with positive
  · exact .inr ⟨positive, rfl⟩
  · exact .inl rfl

theorem reject_cases (qty : ℤ) : p.reject qty = (false, p) ∨
    0 < qty ∧ p.reject qty = p.moveQuantity qty qsPending qsOpen := by
  unfold reject
  split_ifs with positive
  · exact .inr ⟨positive, rfl⟩
  · exact .inl rfl

theorem canceledFill_cases (qty price : ℤ) : p.canceledFill qty price = (false, p) ∨
    0 < qty ∧ (p.moveQuantity qty qsPending qsOpen).1 = true ∧
      ∃ average, p.canceledFill qty price =
        (true, { (p.moveQuantity qty qsPending qsOpen).2 with price := average }) := by
  have refused := p.moveQuantity_refused qty qsPending qsOpen
  unfold canceledFill
  split_ifs with positive
  · simp only
    generalize p.moveQuantity qty qsPending qsOpen = result at refused ⊢
    obtain ⟨ok, p'⟩ := result
    cases ok with
    | true => exact .inr ⟨positive.1, rfl, _, rfl⟩
    | false => exact .inl (congrArg (Prod.mk false) (refused rfl))
  · exact .inl rfl

theorem canceledReject_cases (qty : ℤ) : p.canceledReject qty = (false, p) ∨
    (0 < qty ∧ qty ≤ p.quantities qsPending) ∧ p.canceledReject qty =
      (true, p.setQuantity qsPending (int64 (p.quantities qsPending - qty))) := by
  unfold canceledReject
  split_ifs with guard
  · exact .inr ⟨guard, rfl⟩
  · exact .inl rfl

theorem reduceOpenQuantity_cases (qty : ℤ) : p.reduceOpenQuantity qty = (false, p) ∨
    (0 ≤ qty ∧ qty ≤ p.quantities qsOpen) ∧ p.reduceOpenQuantity qty =
      (true, p.setQuantity qsOpen (int64 (p.quantities qsOpen - qty))) := by
  unfold reduceOpenQuantity
  split_ifs with refused
  · exact .inl rfl
  · obtain ⟨positive, enough⟩ := not_or.mp refused
    exact .inr ⟨⟨not_lt.mp positive, not_lt.mp enough⟩, rfl⟩

theorem cancelOpenQty_cases (qty : ℤ) (allOrNothing : Bool) :
    p.cancelOpenQty qty allOrNothing = (0, p) ∨
    ∃ canceled, (0 ≤ p.quantities qsOpen → 0 ≤ canceled) ∧ canceled ≤ p.quantities qsOpen ∧
      p.cancelOpenQty qty allOrNothing =
        (canceled, p.setQuantity qsOpen (int64 (p.quantities qsOpen - canceled))) := by
  unfold cancelOpenQty
  split
  next => exact .inl rfl
  next positive =>
    simp only
    generalize limited : (if qty = 0 ∨ (!allOrNothing) = true ∧ qty > p.quantities qsOpen then
      p.quantities qsOpen else qty) = canceled
    split
    next enough =>
      refine .inr ⟨canceled, fun opened => ?_, enough, rfl⟩
      split_ifs at limited with whole
      · omega
      · omega
    next => exact .inl rfl

theorem addOpenQuantity_cases (reg : Registry) (side : Side) (price qty : ℤ) :
    p.addOpenQuantity reg side price qty = (false, p) ∨
    qty = 0 ∧ p.addOpenQuantity reg side price qty = (true, p) ∨
    0 < qty ∧ ∃ average, p.addOpenQuantity reg side price qty =
      (true, { p with price := average }.setQuantity qsOpen
        (int64 (p.quantities qsOpen + qty))) := by
  unfold addOpenQuantity
  split_ifs with invalid nothing wrong
  · exact .inl rfl
  · by_cases zero : qty = 0
    · exact .inr (.inl ⟨zero, by rw [zero]; rfl⟩)
    · exact .inl (by rw [beq_false_of_ne zero])
  · exact .inl rfl
  · exact .inr (.inr ⟨not_le.mp nothing, _, rfl⟩)

end Cases

section Operations
variable (nonneg : p.NonNegative) (fits : p.total < 2 ^ 63)
include nonneg fits

theorem order_accounted (qty : ℤ) :
    Accounted p ((p.order qty).1 = true) 0 (p.order qty).2 := by
  obtain refused | ⟨positive, moved⟩ := p.order_cases qty
  · rw [refused]
    exact Accounted.unchanged nonneg _
  · rw [moved]
    exact moveQuantity_accounted nonneg fits positive qsOpen qsPending

theorem reject_accounted (qty : ℤ) :
    Accounted p ((p.reject qty).1 = true) 0 (p.reject qty).2 := by
  obtain refused | ⟨positive, moved⟩ := p.reject_cases qty
  · rw [refused]
    exact Accounted.unchanged nonneg _
  · rw [moved]
    exact moveQuantity_accounted nonneg fits positive qsPending qsOpen

theorem fillFrom_accounted (qsFrom : QtyState) (qty price : ℤ) :
    Accounted p ((p.fillFrom qsFrom qty price).1 ≠ none) 0 (p.fillFrom qsFrom qty price).2 := by
  unfold fillFrom
  split_ifs with positive
  · have moved := moveQuantity_accounted nonneg fits positive.1 qsFrom qsFilled
    generalize p.moveQuantity qty qsFrom qsFilled = result at moved ⊢
    obtain ⟨ok, p'⟩ := result
    cases ok with
    | true => exact ⟨moved.nonneg, moved.total, absurd (Option.some_ne_none _)⟩
    | false => exact ⟨moved.nonneg, moved.total, fun _ => moved.refused Bool.false_ne_true⟩
  · exact Accounted.unchanged nonneg _

theorem canceledFill_accounted (qty price : ℤ) :
    Accounted p ((p.canceledFill qty price).1 = true) 0 (p.canceledFill qty price).2 := by
  obtain refused | ⟨positive, -, average, moves⟩ := p.canceledFill_cases qty price
  · rw [refused]
    exact Accounted.unchanged nonneg _
  · have moved := moveQuantity_accounted nonneg fits positive qsPending qsOpen
    rw [moves]
    exact ⟨moved.nonneg, moved.total, absurd rfl⟩

theorem canceledReject_accounted (qty : ℤ) :
    Accounted p ((p.canceledReject qty).1 = true)
      (if (p.canceledReject qty).1 = true then -qty else 0) (p.canceledReject qty).2 := by
  obtain refused | ⟨⟨positive, enough⟩, accepted⟩ := p.canceledReject_cases qty
  · rw [refused]
    exact Accounted.unchanged nonneg _
  · rw [accepted]
    exact lower_accounted nonneg fits positive.le enough rfl

theorem reduceOpenQuantity_accounted (qty : ℤ) :
    Accounted p ((p.reduceOpenQuantity qty).1 = true)
      (if (p.reduceOpenQuantity qty).1 = true then -qty else 0) (p.reduceOpenQuantity qty).2 := by
  obtain refused | ⟨⟨positive, enough⟩, accepted⟩ := p.reduceOpenQuantity_cases qty
  · rw [refused]
    exact Accounted.unchanged nonneg _
  · rw [accepted]
    exact lower_accounted nonneg fits positive enough rfl

theorem cancelOpenQty_accounted (qty : ℤ) (allOrNothing : Bool) :
    Accounted p ((p.cancelOpenQty qty allOrNothing).1 ≠ 0) (-(p.cancelOpenQty qty allOrNothing).1)
      (p.cancelOpenQty qty allOrNothing).2 := by
  obtain refused | ⟨canceled, kept, enough, cancels⟩ := p.cancelOpenQty_cases qty allOrNothing
  · rw [refused]
    exact Accounted.unchanged nonneg _
  · rw [cancels]
    have opened := nonneg qsOpen
    have small := nonneg.le_total qsOpen
    by_cases none : canceled = 0
    · rw [none, sub_zero, int64_eq (by omega) (by omega), setQuantity_self]
      exact Accounted.unchanged nonneg _
    · exact lower_accounted nonneg fits (kept opened) enough none

theorem addOpenQuantity_accounted (reg : Registry) (side : Side) (price qty : ℤ)
    (room : (p.addOpenQuantity reg side price qty).1 = true → p.total + qty < 2 ^ 63) :
    Accounted p ((p.addOpenQuantity reg side price qty).1 = true)
      (if (p.addOpenQuantity reg side price qty).1 = true then qty else 0)
      (p.addOpenQuantity reg side price qty).2 := by
  obtain refused | ⟨zero, accepted⟩ | ⟨positive, average, raised⟩ :=
    p.addOpenQuantity_cases reg side price qty
  · rw [refused]
    exact Accounted.unchanged nonneg _
  · rw [accepted, zero]
    exact Accounted.unchanged nonneg _
  · rw [raised] at room ⊢
    have fits' := room rfl
    have opened := nonneg qsOpen
    have small := nonneg.le_total qsOpen
    rw [int64_eq (x := p.quantities qsOpen + qty) (by omega) (by omega)]
    refine ⟨setQuantity_nonNegative (p := { p with price := average }) nonneg qsOpen (by omega),
      ?_, absurd rfl⟩
    rw [setQuantity_total]
    change p.total + (p.quantities qsOpen + qty - p.quantities qsOpen) = _
    rw [if_pos rfl]
    omega

end Operations

theorem cancel_spec (nonneg : p.NonNegative) (revertFilled : Bool) :
    (p.cancel revertFilled).NonNegative ∧
    (p.cancel revertFilled).quantities qsPending = p.quantities qsPending ∧
    (p.cancel revertFilled).quantities qsOpen + (p.cancel revertFilled).quantities qsFilled =
      p.quantities qsFilled := by
  have pending := nonneg qsPending
  have filled := nonneg qsFilled
  have quantities : (p.cancel revertFilled).quantities =
      if revertFilled = true ∧ p.quantities qsFilled > 0 then
        Function.update (Function.update p.quantities qsOpen (p.quantities qsFilled)) qsFilled 0
      else Function.update p.quantities qsOpen 0 := by
    unfold cancel
    cases revertFilled with
    | true =>
        simp only [true_and, if_true]
        split
        next => rfl
        next => rfl
    | false => rfl
  unfold NonNegative
  rw [quantities]
  split_ifs with reverts
  · refine ⟨fun state => ?_, by simp, by simp⟩
    cases state with
    | qsOpen => simpa using filled
    | qsPending => simpa using pending
    | qsFilled => simp
  · refine ⟨fun state => ?_, by simp, by simp⟩
    cases state with
    | qsOpen => simp
    | qsPending => simpa using pending
    | qsFilled => simpa using filled

theorem skim_spec (nonneg : p.NonNegative) :
    p.skim.2.NonNegative ∧
    ∀ state, p.skim.2.quantities state + p.skim.1.quantities state = p.quantities state := by
  constructor
  · exact setQuantity_nonNegative nonneg qsFilled le_rfl
  · intro state
    cases state with
    | qsOpen => simp [skim]
    | qsPending => simp [skim]
    | qsFilled => simp [skim]

def Operation.plain : Operation → Bool
  | .cancel _ => false
  | .skim => false
  | _ => true

theorem Accounted.balanced {reg : Registry} {op : Operation} {accepted : Prop} {change : ℤ}
    (accounted : Accounted p accepted change (p.step reg op)) (plain : op.plain = true)
    (same : change = p.change op (p.perform reg op).1)
    (refuses : (p.perform reg op).1.Refused → ¬ accepted) :
    (p.step reg op).NonNegative ∧ Balanced reg p op := by
  have noSkim : ∀ position, (p.perform reg op).1 ≠ .skimmed position := by
    intro position
    cases op with
    | skim => contradiction
    | _ => simp [perform]
  refine ⟨accounted.nonneg, ?_, fun refused => accounted.refused (refuses refused), ?_, ?_⟩
  · rw [accounted.total, same]
  · intro revertFilled cancels
    rw [cancels] at plain
    contradiction
  · intro position skims
    exact absurd skims (noSkim position)

theorem perform_balanced (reg : Registry) (nonneg : p.NonNegative) (op : Operation)
    (fits : Fits reg p op) : (p.step reg op).NonNegative ∧ Balanced reg p op := by
  cases op with
  | order qty =>
      apply (order_accounted nonneg fits qty).balanced rfl rfl
      simp [perform, Result.Refused]
  | fill qty price =>
      apply (fillFrom_accounted nonneg fits qsPending qty price).balanced rfl rfl
      simp [perform, Result.Refused, fill]
  | directFill qty price =>
      apply (fillFrom_accounted nonneg fits qsOpen qty price).balanced rfl rfl
      simp [perform, Result.Refused, directFill]
  | reject qty =>
      apply (reject_accounted nonneg fits qty).balanced rfl rfl
      simp [perform, Result.Refused]
  | canceledFill qty price =>
      apply (canceledFill_accounted nonneg fits qty price).balanced rfl rfl
      simp [perform, Result.Refused]
  | canceledReject qty =>
      apply (canceledReject_accounted nonneg fits qty).balanced rfl
      · cases accepted : (p.canceledReject qty).1 with
        | true => simp [perform, accepted, change]
        | false => simp [perform, accepted, change]
      · simp [perform, Result.Refused]
  | cancel revertFilled =>
      obtain ⟨nonneg', pending, filled⟩ := cancel_spec nonneg revertFilled
      refine ⟨nonneg', ?_, fun refused => absurd refused id, ?_, ?_⟩
      · change (p.cancel revertFilled).total = p.total + -p.quantities qsOpen
        unfold total
        omega
      · intro _ _
        exact ⟨pending, filled⟩
      · simp [perform]
  | cancelOpenQty qty allOrNothing =>
      apply (cancelOpenQty_accounted nonneg fits qty allOrNothing).balanced rfl rfl
      simp [perform, Result.Refused]
  | addOpenQuantity side price qty =>
      apply (addOpenQuantity_accounted nonneg fits.1 reg side price qty fits.2).balanced rfl
      · cases accepted : (p.addOpenQuantity reg side price qty).1 with
        | true => simp [perform, accepted, change]
        | false => simp [perform, accepted, change]
      · simp [perform, Result.Refused]
  | reduceOpenQuantity qty =>
      apply (reduceOpenQuantity_accounted nonneg fits qty).balanced rfl
      · cases accepted : (p.reduceOpenQuantity qty).1 with
        | true => simp [perform, accepted, change]
        | false => simp [perform, accepted, change]
      · simp [perform, Result.Refused]
  | skim =>
      obtain ⟨nonneg', splits⟩ := skim_spec nonneg
      refine ⟨nonneg', ?_, fun refused => absurd refused id, ?_, ?_⟩
      · change p.skim.2.total = p.total + -p.skim.1.total
        have opened := splits qsOpen
        have pending := splits qsPending
        have filled := splits qsFilled
        unfold total
        omega
      · simp
      · intro position skimmed
        obtain rfl : p.skim.1 = position := Result.skimmed.inj skimmed
        exact splits

theorem create_nonNegative (instrument : CurrencyPair) (dealtCurrency : Currency) (side : Side)
    (price : ℤ) {openQuantity : ℤ} (nonneg : 0 ≤ openQuantity) :
    (create instrument dealtCurrency side price openQuantity).NonNegative := by
  intro state
  cases state with
  | qsOpen => exact nonneg
  | qsPending => exact le_rfl
  | qsFilled => exact le_rfl

/-- Whatever is done to a position, none of its quantities is negative and each operation moves,
drops or adds what it returns. -/
theorem accounts (reg : Registry) (instrument : CurrencyPair) (dealtCurrency : Currency)
    (side : Side) (price : ℤ) {openQuantity : ℤ} (nonneg : 0 ≤ openQuantity)
    (ops : List Operation)
    (fits : Along (step reg) (Fits reg)
      (create instrument dealtCurrency side price openQuantity) ops) :
    Always (step reg) NonNegative (create instrument dealtCurrency side price openQuantity) ops ∧
    Along (step reg) (Balanced reg)
      (create instrument dealtCurrency side price openQuantity) ops := by
  have keep : ∀ (p : Position) op, Fits reg p op → p.NonNegative → (p.step reg op).NonNegative :=
    fun p op fits nonneg => (perform_balanced reg nonneg op fits).1
  have initial := create_nonNegative instrument dealtCurrency side price nonneg
  constructor
  · exact always_of_invariant keep initial fits
  · exact along_of_invariant keep
      (fun p op fits nonneg => (perform_balanced reg nonneg op fits).2) initial fits

instance (reg : Registry) (p : Position) : (op : Operation) → Decidable (Fits reg p op)
  | .addOpenQuantity _ _ _ => inferInstanceAs (Decidable (_ ∧ (_ → _)))
  | .order _ => inferInstanceAs (Decidable (_ < _))
  | .fill _ _ => inferInstanceAs (Decidable (_ < _))
  | .directFill _ _ => inferInstanceAs (Decidable (_ < _))
  | .reject _ => inferInstanceAs (Decidable (_ < _))
  | .canceledFill _ _ => inferInstanceAs (Decidable (_ < _))
  | .canceledReject _ => inferInstanceAs (Decidable (_ < _))
  | .cancel _ => inferInstanceAs (Decidable (_ < _))
  | .cancelOpenQty _ _ => inferInstanceAs (Decidable (_ < _))
  | .reduceOpenQuantity _ => inferInstanceAs (Decidable (_ < _))
  | .skim => inferInstanceAs (Decidable (_ < _))

def eurUsd : CurrencyPair := ⟨Currency.eur, Currency.usd⟩

def lateFill : List Operation :=
  [.order 600, .fill 400 1200000, .cancel true, .canceledFill 100 1210000, .canceledReject 200,
    .addOpenQuantity .sell 1190000 300, .cancelOpenQty 900 true, .directFill 100 1180000, .skim,
    .reduceOpenQuantity 50]

theorem accounts_lateFill :
    Always (step noCurrencies) NonNegative (create eurUsd Currency.eur .buy 1205000 1000) lateFill ∧
    Along (step noCurrencies) (Balanced noCurrencies)
      (create eurUsd Currency.eur .buy 1205000 1000) lateFill :=
  accounts noCurrencies eurUsd Currency.eur .buy 1205000 (by decide) lateFill (by decide +kernel)

end Position

end SpotGridBot.Utils
