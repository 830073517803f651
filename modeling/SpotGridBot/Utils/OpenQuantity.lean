import SpotGridBot.Lib.Rounding
import SpotGridBot.Utils.Wrapping
import Mathlib.Algebra.Order.Field.Basic
import Mathlib.Tactic.FieldSimp
import Mathlib.Tactic.Ring

namespace SpotGridBot.Utils
open Runs Rounding

theorem llround_near (value : ℚ) : |(llround value : ℚ) - value| ≤ 1 / 2 := by
  unfold llround
  split
  · have below := Int.floor_le (-value + 1 / 2)
    have above := Int.lt_floor_add_one (-value + 1 / 2)
    push_cast
    exact abs_le.mpr ⟨by linarith, by linarith⟩
  · have below := Int.floor_le (value + 1 / 2)
    have above := Int.lt_floor_add_one (value + 1 / 2)
    exact abs_le.mpr ⟨by linarith, by linarith⟩

theorem llround_between {low high : ℤ} {value : ℚ} (above : (low : ℚ) - 1 / 2 < value)
    (below : value < high + 1 / 2) : low ≤ llround value ∧ llround value ≤ high := by
  obtain ⟨down, up⟩ := abs_le.mp (llround_near value)
  have least : (low : ℚ) < llround value + 1 := by linarith
  have most : (llround value : ℚ) < high + 1 := by linarith
  constructor
  · exact Int.lt_add_one_iff.mp (by exact_mod_cast least)
  · exact Int.lt_add_one_iff.mp (by exact_mod_cast most)

def Registry.PipsPositive (reg : Registry) : Prop :=
  ∀ cp precision, reg.cpToPrecision cp = some precision → 0 < precision.2

theorem Registry.PipsPositive.cpipFactor_pos {reg : Registry} (pips : reg.PipsPositive)
    (cp : CurrencyPair) : 0 < reg.cpipFactor cp := by
  have pip : 0 < reg.pipFactor cp := by
    unfold pipFactor
    split
    · cases found : reg.cpToPrecision cp with
      | none => decide
      | some precision => exact pips cp precision found
    · decide
  unfold cpipFactor
  omega

namespace Position
open QtyState

variable (p : Position)

def averagePrice (price qty : ℤ) : ℚ :=
  (p.quantities qsOpen * p.price + qty * price) / (p.quantities qsOpen + qty)

structure Raised (side : Side) (price qty : ℤ) (p' : Position) : Prop where
  side : p'.side = side
  opened : p'.quantities qsOpen = p.quantities qsOpen + qty
  first : p.quantities qsOpen = 0 → p'.price = price
  between : p.quantities qsOpen > 0 → min p.price price ≤ p'.price ∧ p'.price ≤ max p.price price
  average : |(p'.price : ℚ) - p.averagePrice price qty| < 1

structure Adds (reg : Registry) (side : Side) (price qty : ℤ) : Prop where
  raised : (p.addOpenQuantity reg side price qty).1 = true → 0 < qty →
    p.Raised side price qty (p.addOpenQuantity reg side price qty).2
  unchanged : ¬ ((p.addOpenQuantity reg side price qty).1 = true ∧ 0 < qty) →
    (p.addOpenQuantity reg side price qty).2 = p

def Takes (side : Side) (price qty : ℤ) : Prop :=
  side ≠ .invalid ∧ 0 < price ∧ 0 < qty ∧ (side = p.side ∨ p.quantity ≤ 0)

def OwnSide (side : Side) (price qty : ℤ) : Prop :=
  side ≠ .invalid → 0 < price → 0 < qty → p.quantity ≤ 0 → side = p.side

/-- The prices that are averaged are small beside the 53 bits of a `double`. -/
def SmallPrices (side : Side) (price qty : ℤ) : Prop :=
  p.Takes side price qty → (0 < p.quantities qsOpen → |p.price| ≤ 2 ^ 48) ∧ price ≤ 2 ^ 48

instance (side : Side) (price qty : ℤ) : Decidable (p.SmallPrices side price qty) :=
  inferInstanceAs (Decidable (_ ∧ _ ∧ _ ∧ _ → (_ → _) ∧ _))

variable {p}

theorem average_between {a b m n : ℚ} (nonneg : 0 ≤ m) (positive : 0 < n) :
    min a b ≤ (m * a + n * b) / (m + n) ∧ (m * a + n * b) / (m + n) ≤ max a b := by
  have total : 0 < m + n := by linarith
  rw [le_div_iff₀ total, div_le_iff₀ total]
  constructor
  · have first := mul_le_mul_of_nonneg_left (min_le_left a b) nonneg
    have second := mul_le_mul_of_nonneg_left (min_le_right a b) positive.le
    linarith
  · have first := mul_le_mul_of_nonneg_left (le_max_left a b) nonneg
    have second := mul_le_mul_of_nonneg_left (le_max_right a b) positive.le
    linarith

theorem roundedAverage_error {nearest : ℚ → ℚ} (rounds : Rounds (1 / 2 ^ 53) nearest)
    (P price : ℚ) {Q qty F D : ℚ} (nonneg : 0 ≤ Q) (positive : 0 < qty) (factor : 0 < F)
    (decimal : 0 < D) :
    let cpipToDbl (cpip : ℚ) := nearest (nearest cpip / nearest F)
    let qtyToDouble (qty : ℚ) := nearest (nearest qty / D)
    let value := nearest (nearest (cpipToDbl P * qtyToDouble Q) +
      nearest (cpipToDbl price * qtyToDouble qty))
    |nearest (nearest (value / qtyToDouble (Q + qty)) * nearest F) -
        (Q * P + qty * price) / (Q + qty)| ≤
      (((1 - 1 / 2 ^ 53) ^ 12)⁻¹ - 1) * ((Q * |P| + qty * |price|) / (Q + qty)) := by
  intro cpipToDbl qtyToDouble value
  have less : (1 : ℚ) / 2 ^ 53 < 1 := by norm_num
  have once : ∀ {k : ℕ} {x y : ℚ}, Near (1 / 2 ^ 53) k x y →
      Near (1 / 2 ^ 53) (k + 1) (nearest x) y := fun near =>
    near.round less rounds (by norm_num)
  have same := Near.refl (1 / 2 ^ 53)
  have toDbl : ∀ cpip : ℚ, Near (1 / 2 ^ 53) 3 (cpipToDbl cpip) (cpip / F) := fun cpip =>
    once ((once (same cpip)).div less (once (same F)))
  have toQty : ∀ qty : ℚ, Near (1 / 2 ^ 53) 2 (qtyToDouble qty) (qty / D) := fun qty =>
    once ((once (same qty)).div less (same D))
  have scaled : ∀ cpip qty' : ℚ, Near (1 / 2 ^ 53) 6
      (nearest (cpipToDbl cpip * qtyToDouble qty') / ((Q + qty) / D) * F)
      (cpip / F * (qty' / D) / ((Q + qty) / D) * F) := fun cpip qty' =>
    ((once ((toDbl cpip).mul less (toQty qty'))).div less (same _)).mul less (same F)
  have total := once ((once ((once (same (nearest (cpipToDbl P * qtyToDouble Q) +
    nearest (cpipToDbl price * qtyToDouble qty)))).div less (toQty (Q + qty)))).mul less
      (once (same F)))
  rw [add_div, add_mul] at total
  have error := (scaled P Q).error_add less (scaled price qty) total
  have sum : 0 < Q + qty := by linarith
  have average : ∀ cpip qty' : ℚ, cpip / F * (qty' / D) / ((Q + qty) / D) * F =
      qty' * cpip / (Q + qty) := by
    intro cpip qty'
    field_simp
  rw [average, average, ← add_div, abs_div, abs_div, abs_mul, abs_mul, abs_of_nonneg nonneg,
    abs_of_pos positive, abs_of_pos sum, ← add_div] at error
  exact error

theorem roundings_lt : ((((1 : ℚ) - 1 / 2 ^ 53) ^ 12)⁻¹ - 1) * 2 ^ 48 < 1 / 2 := by norm_num

theorem raisedPrice_near {reg : Registry} (rounds : Rounds (1 / 2 ^ 53) reg.nearest)
    (pips : reg.PipsPositive) {price qty : ℤ} (nonneg : 0 ≤ p.quantities qsOpen)
    (positive : 0 < qty) (total : p.quantities qsOpen + qty < 2 ^ 63)
    (small : 0 < p.quantities qsOpen → |p.price| ≤ 2 ^ 48) (priced : 0 < price)
    (small' : price ≤ 2 ^ 48) :
    ∃ value, p.raisedPrice reg price qty = llround value ∧
      |value - p.averagePrice price qty| < 1 / 2 := by
  have nonneg' : (0 : ℚ) ≤ p.quantities qsOpen := by exact_mod_cast nonneg
  have positive' : (0 : ℚ) < qty := by exact_mod_cast positive
  have sum : (0 : ℚ) < p.quantities qsOpen + qty := by linarith
  have factor : (0 : ℚ) < reg.cpipFactor p.instrument := by
    exact_mod_cast pips.cpipFactor_pos p.instrument
  have decimal : (0 : ℚ) <
      if p.instrument.IsFX then quantityDecimalFactor else quantityDecimalFactorCrypto := by
    unfold quantityDecimalFactor quantityDecimalFactorCrypto
    split <;> norm_num
  have error := roundedAverage_error rounds p.price price nonneg' positive' factor decimal
  have weighted : (p.quantities qsOpen * |(p.price : ℚ)| + qty * |(price : ℚ)|) /
      (p.quantities qsOpen + qty) ≤ 2 ^ 48 := by
    have added : |(price : ℚ)| ≤ 2 ^ 48 := by
      rw [abs_of_pos (by exact_mod_cast priced)]
      exact_mod_cast small'
    have held : p.quantities qsOpen * |(p.price : ℚ)| ≤ p.quantities qsOpen * 2 ^ 48 := by
      rcases nonneg'.eq_or_lt with none | some
      · rw [← none, zero_mul, zero_mul]
      · exact mul_le_mul_of_nonneg_left
          (by exact_mod_cast small (by exact_mod_cast some)) nonneg'
    rw [div_le_iff₀ sum]
    linarith [mul_le_mul_of_nonneg_left added positive'.le]
  refine ⟨_, ?_, (error.trans ?_).trans_lt roundings_lt⟩
  · unfold raisedPrice
    rw [int64_eq (by omega) total]
    push_cast
    rfl
  · exact mul_le_mul_of_nonneg_left weighted (by norm_num)

theorem addOpenQuantity_takes (p : Position) (reg : Registry) (side : Side) (price qty : ℤ) :
    ¬ p.Takes side price qty ∧ ¬ ((p.addOpenQuantity reg side price qty).1 = true ∧ 0 < qty) ∧
      (p.addOpenQuantity reg side price qty).2 = p ∨
    p.Takes side price qty ∧ p.addOpenQuantity reg side price qty =
      (true, { p with price := p.raisedPrice reg price qty }.setQuantity qsOpen
        (int64 (p.quantities qsOpen + qty))) := by
  unfold addOpenQuantity Takes
  split_ifs with invalid nothing wrong
  · refine .inl ⟨fun takes => ?_, by simp, rfl⟩
    exact invalid.elim takes.1 (not_le.mpr takes.2.1)
  · exact .inl ⟨fun takes => not_le.mpr takes.2.2.1 nothing,
      fun raises => not_le.mpr raises.2 nothing, rfl⟩
  · refine .inl ⟨fun takes => ?_, by simp, rfl⟩
    exact takes.2.2.2.elim wrong.1 (not_le.mpr wrong.2)
  · refine .inr ⟨⟨fun same => invalid (.inl same), not_le.mp fun low => invalid (.inr low),
      not_le.mp nothing, ?_⟩, rfl⟩
    by_cases same : side = p.side
    · exact .inl same
    · exact .inr (not_lt.mp fun holds => wrong ⟨same, holds⟩)

theorem raised_iff (side : Side) {price qty : ℤ} {value : ℚ} (nonneg : 0 ≤ p.quantities qsOpen)
    (positive : 0 < qty) (near : |value - p.averagePrice price qty| < 1 / 2) :
    p.Raised side price qty ({ p with price := llround value }.setQuantity
      qsOpen (p.quantities qsOpen + qty)) ↔ side = p.side := by
  have positiveQ : (0 : ℚ) < qty := by exact_mod_cast positive
  have nonnegQ : (0 : ℚ) ≤ p.quantities qsOpen := by exact_mod_cast nonneg
  obtain ⟨down, up⟩ := abs_lt.mp near
  constructor
  · intro raised
    exact raised.side.symm
  · intro same
    refine ⟨same.symm, by simp, ?_, ?_, ?_⟩
    · intro flat
      have added : p.averagePrice price qty = price := by
        unfold averagePrice
        rw [flat]
        field_simp
        push_cast
        ring
      rw [added] at down up
      obtain ⟨low, high⟩ : price ≤ llround value ∧ llround value ≤ price :=
        llround_between (by linarith) (by linarith)
      exact le_antisymm high low
    · intro _
      obtain ⟨above, below⟩ := average_between (a := p.price) (b := price) nonnegQ positiveQ
      change _ ≤ p.averagePrice price qty at above
      change p.averagePrice price qty ≤ _ at below
      apply llround_between
      · push_cast
        linarith
      · push_cast
        linarith
    · have rounded := llround_near value
      change |(llround value : ℚ) - p.averagePrice price qty| < 1
      obtain ⟨down', up'⟩ := abs_le.mp rounded
      exact abs_lt.mpr ⟨by linarith, by linarith⟩

theorem adds_of_refused {side : Side} {price qty : ℤ} {reg : Registry}
    (failed : ¬ ((p.addOpenQuantity reg side price qty).1 = true ∧ 0 < qty))
    (kept : (p.addOpenQuantity reg side price qty).2 = p) : p.Adds reg side price qty :=
  ⟨fun accepted positive => absurd ⟨accepted, positive⟩ failed, fun _ => kept⟩

theorem adds_iff_ownSide {reg : Registry} (rounds : Rounds (1 / 2 ^ 53) reg.nearest)
    (pips : reg.PipsPositive) (nonneg : p.NonNegative) {side : Side} {price qty : ℤ}
    (fits : Fits reg p (.addOpenQuantity side price qty)) :
    (p.Adds reg side price qty → p.OwnSide side price qty) ∧
    (p.OwnSide side price qty → p.SmallPrices side price qty → p.Adds reg side price qty) := by
  rcases p.addOpenQuantity_takes reg side price qty with ⟨refused, failed, kept⟩ | ⟨takes, added⟩
  · refine ⟨fun _ valid priced positive flat => ?_, fun _ _ => adds_of_refused failed kept⟩
    exact absurd ⟨valid, priced, positive, .inr flat⟩ refused
  · have accepted : (p.addOpenQuantity reg side price qty).1 = true := by rw [added]
    have room := fits.2 accepted
    have below := nonneg.le_total qsOpen
    have opened := nonneg qsOpen
    have positive := takes.2.2.1
    constructor
    · intro adds _ _ _ _
      have side := (adds.raised accepted positive).side
      rw [added] at side
      exact side.symm
    · intro own small
      obtain ⟨held, addedPrice⟩ := small takes
      obtain ⟨value, rounded, near⟩ := raisedPrice_near rounds pips opened positive (by omega) held
        takes.2.1 addedPrice
      rw [rounded, int64_eq (x := p.quantities qsOpen + qty) (by omega) (by omega)] at added
      have same : side = p.side := takes.2.2.2.elim id (own takes.1 takes.2.1 positive)
      have raised := (raised_iff side opened positive near).mpr same
      refine ⟨fun _ _ => ?_, fun failed => absurd ⟨accepted, positive⟩ failed⟩
      rwa [added]

/-- In every state of a run, adding open quantity does what it promises only if what a flat
position takes is for its own side, and if the prices are small besides. -/
theorem always_adds_iff_ownSide (reg : Registry) (rounds : Rounds (1 / 2 ^ 53) reg.nearest)
    (pips : reg.PipsPositive) (start : Position) (nonneg : start.NonNegative)
    (ops : List Operation) (fits : Along (step reg) (Fits reg) start ops) :
    Always (step reg)
      (fun p => ∀ side price qty, Fits reg p (.addOpenQuantity side price qty) →
        (p.Adds reg side price qty → p.OwnSide side price qty) ∧
        (p.OwnSide side price qty → p.SmallPrices side price qty → p.Adds reg side price qty))
      start ops := by
  have keep : ∀ (p : Position) op, Fits reg p op → p.NonNegative → (p.step reg op).NonNegative :=
    fun p op fits nonneg => (perform_balanced reg nonneg op fits).1
  exact (always_of_invariant keep nonneg fits).mono fun p nonneg side price qty fits =>
    adds_iff_ownSide rounds pips nonneg fits

def inDoubles : Registry := { noCurrencies with nearest := toDouble }

theorem inDoubles_pipsPositive : inDoubles.PipsPositive := by
  intro cp precision found
  contradiction

def thousand : Position := create eurUsd Currency.eur .buy 1200000 1000

theorem thousand_nonNegative : thousand.NonNegative :=
  create_nonNegative eurUsd Currency.eur .buy 1200000 (by decide)

theorem adds_whileOrdered :
    (run (step inDoubles) thousand [.order 400]).Adds inDoubles .buy 1300000 300 := by
  have holds := always_adds_iff_ownSide inDoubles toDouble_rounds inDoubles_pipsPositive thousand
    thousand_nonNegative [.order 400] (by decide +kernel)
  exact (holds.last .buy 1300000 300 (by decide +kernel)).2 (fun _ _ _ _ => by decide +kernel)
    (fun _ => by decide +kernel)

theorem flat_keepsSide :
    ¬ ∀ (reg : Registry) (start : Position), Rounds (1 / 2 ^ 53) reg.nearest →
      reg.PipsPositive → start.NonNegative →
      ∀ ops : List Operation, Along (step reg) (Fits reg) start ops →
      Always (step reg)
        (fun p => ∀ side price qty, Fits reg p (.addOpenQuantity side price qty) →
          p.Adds reg side price qty) start ops := by
  intro always
  have adds := (always inDoubles thousand toDouble_rounds inDoubles_pipsPositive
    thousand_nonNegative [.reduceOpenQuantity 1000] (by decide +kernel)).last .sell 1300000 500
      (by decide +kernel)
  have side := (adds.raised (by decide +kernel) (by decide)).side
  have kept : ((run (step inDoubles) thousand [.reduceOpenQuantity 1000]).addOpenQuantity
      inDoubles .sell 1300000 500).2.side = .buy := by decide +kernel
  rw [kept] at side
  contradiction

end Position

end SpotGridBot.Utils
