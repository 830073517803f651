import SpotGridBot.Utils.FillProfit
import Mathlib.Algebra.Order.BigOperators.Group.List
import Mathlib.Algebra.Order.Field.Basic
import Mathlib.Tactic.FieldSimp
import Mathlib.Tactic.Ring

namespace SpotGridBot.Utils
open Runs

namespace Position
open QtyState

def executedPrice (p : Position) : ℤ :=
  if p.quantities qsFilled > 0 then
    int64 (p.price - p.sign ((int64 (p.pnl * 100)).tdiv (p.quantities qsFilled)))
  else 0

structure Fill where
  qty : ℤ
  price : ℤ
deriving DecidableEq

def Operation.fill? (reg : Registry) (p : Position) (op : Operation) : Option Fill :=
  match op, (p.perform reg op).1 with
  | .fill qty price, .profit (some _) => some ⟨qty, price⟩
  | .directFill qty price, .profit (some _) => some ⟨qty, price⟩
  | _, _ => none

def Operation.unfills : Operation → Bool
  | .cancel revertFilled => revertFilled
  | .skim => true
  | _ => false

theorem cancel_filled {p : Position} (filled : 0 < p.quantities qsFilled) :
    p.cancel true = (({ p with
      side := p.side.reverse
      price := int64 (p.price + { p with side := p.side.reverse }.sign
        (unitPrice (p.quantities qsFilled) p.pnl))
      pnl := 0 } : Position).setQuantity qsOpen (p.quantities qsFilled)).setQuantity qsFilled 0 := by
  unfold cancel
  rw [if_pos rfl]
  exact if_pos ⟨rfl, filled⟩

theorem cancel_unfilled {p : Position} (unfilled : p.quantities qsFilled = 0) :
    p.cancel true = ({ p with side := p.side.reverse } : Position).setQuantity qsOpen 0 := by
  have none : ¬ p.quantities qsFilled > 0 := by omega
  unfold cancel
  rw [if_pos rfl]
  exact if_neg fun reverts => none reverts.2

end Position

open Position QtyState

structure Executed where
  position : Position
  fills : List Fill

namespace Executed

def step (reg : Registry) (s : Executed) (op : Operation) : Executed where
  position := s.position.step reg op
  fills := if op.unfills then [] else s.fills ++ (op.fill? reg s.position).toList

variable (s : Executed)

def quantity : ℤ := (s.fills.map Fill.qty).sum
def value : ℤ := (s.fills.map fun fill => fill.qty * fill.price).sum
def averagePrice : ℚ := s.value / s.quantity

def exactPnl : ℤ := s.position.signed (s.position.price * s.quantity - s.value)

def NoOverflow : Prop :=
  -2 ^ 63 ≤ s.exactPnl - 99 * s.fills.length ∧ s.exactPnl < 2 ^ 63 ∧
  InInt64 (s.position.price - s.position.signed
    ((int64 (s.position.pnl * 100)).tdiv (s.position.quantities qsFilled)))

structure NearAverage : Prop where
  truncations : |(s.position.executedPrice : ℚ) - s.averagePrice| ≤
    1 + 99 * s.fills.length / s.quantity
  wholeUnits : (∀ fill ∈ s.fills, 100 ≤ fill.qty) →
    |(s.position.executedPrice : ℚ) - s.averagePrice| ≤ s.fills.length + 1

def KeepsPrice (reg : Registry) (s : Executed) (op : Operation) : Prop :=
  0 < s.position.quantities qsFilled → op.unfills = false →
    (s.position.step reg op).price = s.position.price

structure Recorded : Prop where
  nonneg : s.position.NonNegative
  filled : s.position.quantities qsFilled = s.quantity
  positive : ∀ fill ∈ s.fills, 0 < fill.qty
  pnl : ∃ lost : ℤ, 0 ≤ lost ∧ lost ≤ 99 * s.fills.length ∧
    s.position.pnl * 100 ≡ s.exactPnl - lost [ZMOD 2 ^ 64]

variable {s}

theorem sum_qty_nonneg {fills : List Fill} (positive : ∀ fill ∈ fills, 0 < fill.qty) :
    0 ≤ (fills.map Fill.qty).sum := by
  apply List.sum_nonneg
  intro qty listed
  obtain ⟨fill, member, rfl⟩ := List.mem_map.mp listed
  exact (positive fill member).le

theorem sum_qty_ge {fills : List Fill} (units : ∀ fill ∈ fills, 100 ≤ fill.qty) :
    100 * (fills.length : ℤ) ≤ (fills.map Fill.qty).sum := by
  induction fills with
  | nil => simp
  | cons fill fills ih =>
      have first := units fill List.mem_cons_self
      have later := ih fun other member => units other (List.mem_cons_of_mem fill member)
      simp only [List.map_cons, List.sum_cons, List.length_cons]
      push_cast
      omega

theorem Recorded.fills_eq_nil (recorded : s.Recorded)
    (unfilled : s.position.quantities qsFilled = 0) : s.fills = [] := by
  have nothing : s.quantity = 0 := recorded.filled.symm.trans unfilled
  have positive := recorded.positive
  unfold quantity at nothing
  cases fills : s.fills with
  | nil => rfl
  | cons fill rest =>
      rw [fills] at nothing positive
      have first := positive fill List.mem_cons_self
      have later := sum_qty_nonneg fun other member =>
        positive other (List.mem_cons_of_mem fill member)
      rw [List.map_cons, List.sum_cons] at nothing
      omega

theorem near_of_truncated {price value lost quantity t : ℚ} (long : Prop) [Decidable long]
    (filled : 0 < quantity) (nonneg : 0 ≤ lost)
    (truncated : |(if long then price * quantity - value else -(price * quantity - value)) - lost -
      t * quantity| ≤ quantity) :
    |price - (if long then t else -t) - value / quantity| ≤ 1 + lost / quantity := by
  have whole : ∀ x : ℚ, price - x - value / quantity =
      (price * quantity - value - x * quantity) / quantity := by
    intro x
    field_simp
    ring
  have bound : (1 + lost / quantity) * quantity = quantity + lost := by field_simp
  rw [whole, abs_div, abs_of_pos filled, div_le_iff₀ filled, bound]
  obtain ⟨lower, upper⟩ := abs_le.mp truncated
  apply abs_le.mpr
  split_ifs at lower upper ⊢
  · constructor <;> linarith
  · constructor <;> linarith

theorem Recorded.near (recorded : s.Recorded) (fits : s.NoOverflow)
    (filled : 0 < s.position.quantities qsFilled) : s.NearAverage := by
  obtain ⟨lost, nonneg, few, same⟩ := recorded.pnl
  obtain ⟨lower, upper, inRange⟩ := fits
  have pnl : int64 (s.position.pnl * 100) = s.exactPnl - lost :=
    int64_unique same ⟨by omega, by omega⟩
  have executed : (s.position.executedPrice : ℚ) =
      s.position.price - s.position.signed ((s.exactPnl - lost).tdiv s.quantity) := by
    have quotient : InInt64 ((s.exactPnl - lost).tdiv s.quantity) := by
      rw [← recorded.filled]
      exact InInt64.tdiv ⟨by omega, by omega⟩ filled
    rw [pnl, recorded.filled] at inRange
    unfold executedPrice
    rw [if_pos filled, pnl, recorded.filled]
    have wrapped : int64 (s.position.price - s.position.sign
        ((s.exactPnl - lost).tdiv s.quantity)) = s.position.price - s.position.signed
          ((s.exactPnl - lost).tdiv s.quantity) :=
      int64_unique ((s.position.sign_modEq rfl).sub_left _) inRange
    rw [wrapped]
    push_cast
    rfl
  have some : 0 < s.quantity := by rwa [← recorded.filled]
  have remainder : |s.exactPnl - lost - (s.exactPnl - lost).tdiv s.quantity * s.quantity| ≤
      s.quantity := by
    have divided := Int.tmod_add_mul_tdiv (s.exactPnl - lost) s.quantity
    have below := Int.tmod_lt_of_pos (s.exactPnl - lost) some
    have above := Int.lt_tmod_of_pos (s.exactPnl - lost) some
    rw [abs_le]
    constructor <;> linarith
  have someQ : (0 : ℚ) < s.quantity := by exact_mod_cast some
  have distance : |(s.position.executedPrice : ℚ) - s.averagePrice| ≤ 1 + lost / s.quantity := by
    have nonnegQ : (0 : ℚ) ≤ lost := by exact_mod_cast nonneg
    have remainderQ : |((s.exactPnl - lost - (s.exactPnl - lost).tdiv s.quantity * s.quantity : ℤ) :
        ℚ)| ≤ s.quantity := by exact_mod_cast remainder
    generalize (s.exactPnl - lost).tdiv s.quantity = t at executed remainderQ
    have signed : ((s.position.signed t : ℤ) : ℚ) =
        if s.position.Long then (t : ℚ) else -(t : ℚ) := by
      unfold Position.signed
      split <;> push_cast <;> rfl
    rw [executed, signed]
    apply near_of_truncated s.position.Long someQ nonnegQ
    unfold exactPnl Position.signed at remainderQ
    push_cast at remainderQ
    exact remainderQ
  have fewQ : (lost : ℚ) ≤ 99 * s.fills.length := by exact_mod_cast few
  refine ⟨distance.trans ?_, fun units => distance.trans ?_⟩
  · have less := div_le_div_of_nonneg_right fewQ someQ.le
    linarith
  · have enough : 100 * s.fills.length ≤ s.quantity := sum_qty_ge units
    have enoughQ : (100 : ℚ) * s.fills.length ≤ s.quantity := by exact_mod_cast enough
    have one : (1 : ℚ) ≤ s.fills.length := by
      have listed : s.fills ≠ [] := by
        intro none
        simp [quantity, none] at some
      exact_mod_cast List.length_pos_iff.mpr listed
    have less : (lost : ℚ) / s.quantity ≤ 1 := by
      rw [div_le_one someQ]
      linarith
    linarith

theorem signed_congr {p p' : Position} (long : p'.Long ↔ p.Long) (x : ℤ) :
    p'.signed x = p.signed x := by
  unfold Position.signed
  simp only [long]

@[simp] theorem signed_zero (p : Position) : p.signed 0 = 0 := by
  unfold Position.signed
  split <;> rfl

theorem exactPnl_eq_zero (none : s.fills = []) : s.exactPnl = 0 := by
  simp [exactPnl, quantity, value, none]

structure SameFills (p p' : Position) : Prop where
  filled : p'.quantities qsFilled = p.quantities qsFilled
  pnl : p'.pnl = p.pnl
  long : p'.Long ↔ p.Long

theorem SameFills.refl (p : Position) : SameFills p p := ⟨rfl, rfl, Iff.rfl⟩

theorem SameFills.setQuantity (p : Position) (state : QtyState) (other : state ≠ qsFilled)
    (qty : ℤ) : SameFills p (p.setQuantity state qty) :=
  ⟨Function.update_of_ne other.symm _ _, rfl, Iff.rfl⟩

theorem SameFills.moveQuantity (p : Position) (qty : ℤ) (qsFrom qsTo : QtyState)
    (unfilled : qsFrom ≠ qsFilled) (notFilled : qsTo ≠ qsFilled) :
    SameFills p (p.moveQuantity qty qsFrom qsTo).2 := by
  unfold Position.moveQuantity
  split
  · have first := SameFills.setQuantity p qsFrom unfilled (int64 (p.quantities qsFrom - qty))
    refine ⟨?_, rfl, Iff.rfl⟩
    exact (Function.update_of_ne notFilled.symm _ _).trans first.filled
  · exact SameFills.refl p

theorem SameFills.fillFrom {p : Position} {qsFrom : QtyState} (differ : qsFrom ≠ qsFilled)
    {qty price : ℤ} (refused : (p.fillFrom qsFrom qty price).1 = none) :
    SameFills p (p.fillFrom qsFrom qty price).2 := by
  rcases p.fillFrom_eq qsFrom differ qty price with ⟨-, filled⟩ | ⟨-, moved, -, filled⟩
  · rw [filled]
    exact SameFills.refl p
  · simp [filled] at refused

theorem step_sameFills (reg : Registry) {p : Position} {op : Operation}
    (noFill : op.fill? reg p = none) (kept : op.unfills = false) :
    SameFills p (p.step reg op) := by
  cases op with
  | order qty =>
      change SameFills p (p.order qty).2
      obtain refused | ⟨-, moved⟩ := p.order_cases qty
      · rw [refused]
        exact SameFills.refl p
      · rw [moved]
        exact SameFills.moveQuantity p qty _ _ (by decide) (by decide)
  | fill qty price =>
      apply SameFills.fillFrom (by decide)
      cases filled : (p.fill qty price).1 with
      | none => exact filled
      | some profit => simp [Operation.fill?, perform, filled] at noFill
  | directFill qty price =>
      apply SameFills.fillFrom (by decide)
      cases filled : (p.directFill qty price).1 with
      | none => exact filled
      | some profit => simp [Operation.fill?, perform, filled] at noFill
  | reject qty =>
      change SameFills p (p.reject qty).2
      obtain refused | ⟨-, moved⟩ := p.reject_cases qty
      · rw [refused]
        exact SameFills.refl p
      · rw [moved]
        exact SameFills.moveQuantity p qty _ _ (by decide) (by decide)
  | canceledFill qty price =>
      change SameFills p (p.canceledFill qty price).2
      obtain refused | ⟨-, -, average, filled⟩ := p.canceledFill_cases qty price
      · rw [refused]
        exact SameFills.refl p
      · rw [filled]
        have moved := SameFills.moveQuantity p qty qsPending qsOpen (by decide) (by decide)
        exact ⟨moved.filled, moved.pnl, moved.long⟩
  | canceledReject qty =>
      change SameFills p (p.canceledReject qty).2
      obtain refused | ⟨-, rejected⟩ := p.canceledReject_cases qty
      · rw [refused]
        exact SameFills.refl p
      · rw [rejected]
        exact SameFills.setQuantity p _ (by decide) _
  | cancel revertFilled =>
      obtain rfl : revertFilled = false := kept
      exact SameFills.setQuantity p _ (by decide) 0
  | cancelOpenQty qty allOrNothing =>
      change SameFills p (p.cancelOpenQty qty allOrNothing).2
      obtain refused | ⟨canceled, -, -, cancels⟩ := p.cancelOpenQty_cases qty allOrNothing
      · rw [refused]
        exact SameFills.refl p
      · rw [cancels]
        exact SameFills.setQuantity p qsOpen (by decide) _
  | addOpenQuantity side price qty =>
      change SameFills p (p.addOpenQuantity reg side price qty).2
      obtain refused | ⟨-, accepted⟩ | ⟨-, average, raised⟩ :=
        p.addOpenQuantity_cases reg side price qty
      · rw [refused]
        exact SameFills.refl p
      · rw [accepted]
        exact SameFills.refl p
      · rw [raised]
        have raises := SameFills.setQuantity { p with price := average } qsOpen (by decide)
          (int64 (p.quantities qsOpen + qty))
        exact ⟨raises.filled, raises.pnl, raises.long⟩
  | reduceOpenQuantity qty =>
      change SameFills p (p.reduceOpenQuantity qty).2
      obtain refused | ⟨-, reduced⟩ := p.reduceOpenQuantity_cases qty
      · rw [refused]
        exact SameFills.refl p
      · rw [reduced]
        exact SameFills.setQuantity p _ (by decide) _
  | skim => contradiction

theorem Recorded.sameFills {reg : Registry} {op : Operation} (recorded : s.Recorded)
    (nonneg : (s.position.step reg op).NonNegative) (noFill : op.fill? reg s.position = none)
    (kept : op.unfills = false) (keeps : KeepsPrice reg s op) : (s.step reg op).Recorded := by
  have same := step_sameFills reg noFill kept
  have fills : (s.step reg op).fills = s.fills := by simp [step, kept, noFill]
  have quantity : (s.step reg op).quantity = s.quantity := by rw [Executed.quantity, fills]; rfl
  have value : (s.step reg op).value = s.value := by rw [Executed.value, fills]; rfl
  have exactPnl : (s.step reg op).exactPnl = s.exactPnl := by
    rcases (recorded.nonneg qsFilled).lt_or_eq with filled | unfilled
    · have price : (s.step reg op).position.price = s.position.price := keeps filled kept
      unfold Executed.exactPnl
      rw [price, quantity, value]
      exact signed_congr same.long _
    · have none := recorded.fills_eq_nil unfilled.symm
      rw [exactPnl_eq_zero none, exactPnl_eq_zero (fills.trans none)]
  obtain ⟨lost, lower, upper, pnl⟩ := recorded.pnl
  constructor
  · exact nonneg
  · rw [quantity]
    exact same.filled.trans recorded.filled
  · rw [fills]
    exact recorded.positive
  · refine ⟨lost, lower, by rwa [fills], ?_⟩
    rw [exactPnl]
    change (s.position.step reg op).pnl * 100 ≡ _ [ZMOD 2 ^ 64]
    rw [same.pnl]
    exact pnl

theorem Recorded.unfilled {reg : Registry} {op : Operation} (recorded : s.Recorded)
    (nonneg : (s.position.step reg op).NonNegative) (unfills : op.unfills = true) :
    (s.step reg op).Recorded := by
  have fills : (s.step reg op).fills = [] := by simp [step, unfills]
  have emptied : (s.position.step reg op).quantities qsFilled = 0 ∧
      (s.position.step reg op).pnl * 100 ≡ 0 [ZMOD 2 ^ 64] := by
    cases op with
    | cancel revertFilled =>
        obtain rfl : revertFilled = true := unfills
        change (s.position.cancel true).quantities qsFilled = 0 ∧
          (s.position.cancel true).pnl * 100 ≡ 0 [ZMOD 2 ^ 64]
        rcases (recorded.nonneg qsFilled).lt_or_eq with filled | unfilled
        · rw [cancel_filled filled]
          exact ⟨by simp, rfl⟩
        · have none := recorded.fills_eq_nil unfilled.symm
          obtain ⟨lost, lower, upper, pnl⟩ := recorded.pnl
          have nothing : lost = 0 := by
            rw [none, List.length_nil] at upper
            omega
          rw [exactPnl_eq_zero none, nothing] at pnl
          rw [cancel_unfilled unfilled.symm]
          exact ⟨by simp [unfilled], pnl⟩
    | skim =>
        change s.position.skim.2.quantities qsFilled = 0 ∧ _
        exact ⟨by simp [skim], rfl⟩
    | _ => contradiction
  constructor
  · exact nonneg
  · rw [Executed.quantity, fills]
    exact emptied.1
  · simp [fills]
  · refine ⟨0, le_rfl, by simp [fills], ?_⟩
    rw [exactPnl_eq_zero fills]
    exact emptied.2

theorem moveQuantity_filled {p : Position} (nonneg : p.NonNegative) (fits : p.total < 2 ^ 63)
    {qsFrom : QtyState} (differ : qsFrom ≠ qsFilled) {qty : ℤ} (positive : 0 < qty)
    {moved : Position} (moves : p.moveQuantity qty qsFrom qsFilled = (true, moved)) :
    moved.quantities qsFilled = p.quantities qsFilled + qty ∧ moved.price = p.price ∧
      (moved.Long ↔ p.Long) := by
  unfold Position.moveQuantity at moves
  by_cases enough : qsFrom ≠ qsFilled ∧ p.quantities qsFrom ≥ qty
  · rw [if_pos enough] at moves
    obtain rfl := (Prod.mk.inj moves).2
    refine ⟨?_, rfl, Iff.rfl⟩
    have room := add_le_total nonneg differ
    have kept := nonneg qsFilled
    have rest := enough.2
    simp only [quantities_setQuantity, Function.update_self, Function.update_of_ne differ.symm]
    exact int64_eq (by omega) (by omega)
  · rw [if_neg enough] at moves
    exact absurd (Prod.mk.inj moves).1 Bool.false_ne_true

theorem Recorded.fill {reg : Registry} {op : Operation} (recorded : s.Recorded)
    (fits : s.position.total < 2 ^ 63) {qsFrom : QtyState} (differ : qsFrom ≠ qsFilled)
    {qty price : ℤ} (positive : 0 < qty) {moved : Position}
    (moves : s.position.moveQuantity qty qsFrom qsFilled = (true, moved))
    (steps : s.position.step reg op = { moved with
      pnl := int64 (s.position.pnl +
        amount qty (s.position.sign (int64 (s.position.price - price)))) })
    (nonneg : (s.position.step reg op).NonNegative)
    (fills : (s.step reg op).fills = s.fills ++ [⟨qty, price⟩]) : (s.step reg op).Recorded := by
  obtain ⟨filled, samePrice, long⟩ := moveQuantity_filled recorded.nonneg fits differ positive moves
  obtain ⟨lost, lower, upper, pnl⟩ := recorded.pnl
  obtain ⟨lost', lower', upper', amounts⟩ :=
    amount_modEq qty (s.position.sign (int64 (s.position.price - price)))
  have position : (s.step reg op).position = s.position.step reg op := rfl
  have quantity : (s.step reg op).quantity = s.quantity + qty := by
    simp [Executed.quantity, fills]
  have value : (s.step reg op).value = s.value + qty * price := by
    simp [Executed.value, fills]
  have exactPnl : (s.step reg op).exactPnl =
      s.exactPnl + s.position.signed (s.position.price - price) * qty := by
    have sameSign : ∀ x, (s.position.step reg op).signed x = s.position.signed x := by
      intro x
      rw [steps]
      exact signed_congr long x
    unfold Executed.exactPnl
    rw [position, sameSign, quantity, value, steps]
    dsimp only
    rw [samePrice]
    unfold Position.signed
    split <;> ring
  constructor
  · exact nonneg
  · rw [position, steps, quantity, ← recorded.filled]
    exact filled
  · intro fill member
    rw [fills] at member
    rcases List.mem_append.mp member with old | new
    · exact recorded.positive fill old
    · rw [List.mem_singleton.mp new]
      exact positive
  · refine ⟨lost + lost', by omega, ?_, ?_⟩
    · rw [fills, List.length_append, List.length_singleton]
      push_cast
      omega
    · have signed := s.position.sign_modEq (int64_modEq (s.position.price - price))
      rw [position, steps, exactPnl]
      calc int64 (s.position.pnl +
              amount qty (s.position.sign (int64 (s.position.price - price)))) * 100
          ≡ (s.position.pnl +
              amount qty (s.position.sign (int64 (s.position.price - price)))) * 100
              [ZMOD 2 ^ 64] := (int64_modEq _).mul_right 100
        _ = s.position.pnl * 100 +
              amount qty (s.position.sign (int64 (s.position.price - price))) * 100 := by ring
        _ ≡ s.exactPnl - lost +
              (s.position.sign (int64 (s.position.price - price)) * qty - lost') [ZMOD 2 ^ 64] :=
            pnl.add amounts
        _ ≡ s.exactPnl - lost + (s.position.signed (s.position.price - price) * qty - lost')
              [ZMOD 2 ^ 64] := ((signed.mul_right qty).sub_right lost').add_left _
        _ = s.exactPnl + s.position.signed (s.position.price - price) * qty - (lost + lost') := by
            ring

theorem Recorded.fillFrom {reg : Registry} {op : Operation} (recorded : s.Recorded)
    (fits : s.position.total < 2 ^ 63) (qsFrom : QtyState) (differ : qsFrom ≠ qsFilled)
    {qty price : ℤ} (steps : s.position.step reg op = (s.position.fillFrom qsFrom qty price).2)
    (nonneg : (s.position.step reg op).NonNegative) (kept : op.unfills = false)
    (stored : op.fill? reg s.position = ((s.position.fillFrom qsFrom qty price).1).map
      fun _ => ⟨qty, price⟩) (keeps : KeepsPrice reg s op) : (s.step reg op).Recorded := by
  rcases s.position.fillFrom_eq qsFrom differ qty price with
    ⟨-, filled⟩ | ⟨accepted, moved, moves, filled⟩
  · exact recorded.sameFills nonneg (by rw [stored, filled]; rfl) kept keeps
  · have position := steps.trans (congrArg Prod.snd filled)
    have listed : (s.step reg op).fills = s.fills ++ [⟨qty, price⟩] := by
      simp [step, kept, stored, filled]
    exact recorded.fill fits differ accepted.1 moves position nonneg listed

theorem Recorded.step {reg : Registry} {op : Operation} (recorded : s.Recorded)
    (fits : Fits reg s.position op) (keeps : KeepsPrice reg s op) : (s.step reg op).Recorded := by
  have nonneg := (perform_balanced reg recorded.nonneg op fits).1
  cases op with
  | fill qty price =>
      apply recorded.fillFrom fits qsPending (by decide) rfl nonneg rfl _ keeps
      change Operation.fill? reg s.position (.fill qty price) = (s.position.fill qty price).1.map _
      cases stored : (s.position.fill qty price).1 with
      | none => simp [Operation.fill?, perform, stored]
      | some profit => simp [Operation.fill?, perform, stored]
  | directFill qty price =>
      apply recorded.fillFrom fits qsOpen (by decide) rfl nonneg rfl _ keeps
      change Operation.fill? reg s.position (.directFill qty price) =
        (s.position.directFill qty price).1.map _
      cases stored : (s.position.directFill qty price).1 with
      | none => simp [Operation.fill?, perform, stored]
      | some profit => simp [Operation.fill?, perform, stored]
  | cancel revertFilled =>
      cases revertFilled with
      | true => exact recorded.unfilled nonneg rfl
      | false => exact recorded.sameFills nonneg rfl rfl keeps
  | skim => exact recorded.unfilled nonneg rfl
  | _ => exact recorded.sameFills nonneg rfl rfl keeps

/-- As long as the price of the position stays where it is while part of it is filled, the executed
price is the average price of the fills, up to what is truncated. -/
theorem nearAverage_of_keepsPrice (reg : Registry) (start : Position) (nonneg : start.NonNegative)
    (unfilled : start.quantities qsFilled = 0) (noPnl : start.pnl = 0) (ops : List Operation)
    (fits : Along (Executed.step reg) (fun s op => Fits reg s.position op) ⟨start, []⟩ ops)
    (keeps : Along (Executed.step reg) (KeepsPrice reg) ⟨start, []⟩ ops) :
    Always (Executed.step reg)
      (fun s => s.NoOverflow → 0 < s.position.quantities qsFilled → s.NearAverage)
      ⟨start, []⟩ ops := by
  have initial : Recorded ⟨start, []⟩ := by
    refine ⟨nonneg, unfilled, by simp, 0, le_rfl, le_rfl, ?_⟩
    rw [exactPnl_eq_zero rfl, noPnl]
    rfl
  have always : Always (Executed.step reg) Recorded ⟨start, []⟩ ops :=
    always_of_invariant (fun s op allowed recorded => Recorded.step recorded allowed.1 allowed.2)
      initial (fits.and keeps)
  exact always.mono fun s recorded fits filled => recorded.near fits filled

instance (reg : Registry) (s : Executed) (op : Operation) : Decidable (KeepsPrice reg s op) :=
  inferInstanceAs (Decidable (_ → _ → _))

instance (s : Executed) : Decidable s.NoOverflow := inferInstanceAs (Decidable (_ ∧ _ ∧ _))

def half : Position := create eurUsd Currency.eur .buy 1200000 1000

def filledTwice : List Operation := [.directFill 300 1100000, .order 400, .fill 100 1250000]

theorem nearAverage_filledTwice :
    (run (Executed.step noCurrencies) ⟨half, []⟩ filledTwice).NearAverage := by
  have always := nearAverage_of_keepsPrice noCurrencies half
    (by intro state; cases state <;> decide) rfl rfl filledTwice
    (by decide +kernel) (by decide +kernel)
  exact always.last (by decide +kernel) (by decide +kernel)

def filledAndRaised : List Operation :=
  [.directFill 500 1200000, .addOpenQuantity .buy 1300000 500]

theorem raisedPrice_farFromAverage :
    ¬ ∀ (reg : Registry) (start : Position), start.NonNegative →
      start.quantities qsFilled = 0 → start.pnl = 0 → ∀ ops : List Operation,
      Along (Executed.step reg) (fun s op => Fits reg s.position op) ⟨start, []⟩ ops →
      Always (Executed.step reg)
        (fun s => s.NoOverflow → 0 < s.position.quantities qsFilled → s.NearAverage)
        ⟨start, []⟩ ops := by
  intro always
  have raised := always noCurrencies half (by intro state; cases state <;> decide) rfl rfl
    filledAndRaised (by decide +kernel)
  have near := raised.last (by decide +kernel) (by decide +kernel)
  have bound := near.wholeUnits (by decide +kernel)
  have executed : (run (Executed.step noCurrencies) ⟨half, []⟩
      filledAndRaised).position.executedPrice = 1250000 := by decide +kernel
  have value : (run (Executed.step noCurrencies) ⟨half, []⟩ filledAndRaised).value =
      600000000 := by decide +kernel
  have quantity : (run (Executed.step noCurrencies) ⟨half, []⟩ filledAndRaised).quantity =
      500 := by decide +kernel
  have one : (run (Executed.step noCurrencies) ⟨half, []⟩ filledAndRaised).fills.length = 1 := by
    decide +kernel
  rw [executed, averagePrice, value, quantity, one] at bound
  norm_num at bound

end Executed

end SpotGridBot.Utils
