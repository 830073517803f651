import SpotGridBot.Utils.ExecutedPrice

namespace SpotGridBot.Utils
open Runs

def Side.Opposite (side side' : Side) : Prop :=
  side = .buy ∧ side' = .sell ∨ side = .sell ∧ side' = .buy

namespace Position
open QtyState

variable (p : Position)

def scaledPnl : ℤ := int64 (p.pnl * 100)

structure Reopens : Prop where
  side : p.side.Opposite (p.cancel true).side
  opened : (p.cancel true).quantities qsOpen = p.quantities qsFilled
  filled : (p.cancel true).quantities qsFilled = 0
  pnl : (p.cancel true).pnl = 0
  price : |(p.cancel true).price - p.executedPrice| ≤ 1

def PriceFits : Prop :=
  InInt64 (p.price - p.signed (p.scaledPnl.tdiv (p.quantities qsFilled))) ∧
  InInt64 (p.price - p.signed (unitPrice (p.quantities qsFilled) p.pnl))

def MadeNoLoss : Prop :=
  0 ≤ p.scaledPnl ∨ p.quantities qsFilled = 1 ∨
    2 ^ 64 - 2 * p.quantities qsFilled < -p.scaledPnl ∧ -p.scaledPnl < p.quantities qsFilled

def InRange : Prop := ∀ state, InInt64 (p.quantities state)

variable {p}

theorem unitPrice_eq {quantity : ℤ} (inRange : InInt64 quantity) (positive : 0 < quantity)
    (amount : ℤ) :
    unitPrice quantity amount = int64 (uint64 (int64 (amount * 100)) / quantity) := by
  have same : uint64 (amount * 100) = uint64 (int64 (amount * 100)) := (int64_modEq _).symm
  unfold unitPrice
  rw [uint64_of_nonneg inRange positive.le, same]

theorem unitPrice_of_gain {quantity amount : ℤ} (inRange : InInt64 quantity)
    (positive : 0 < quantity) (gain : 0 ≤ int64 (amount * 100)) :
    unitPrice quantity amount = (int64 (amount * 100)).tdiv quantity := by
  have small := int64_inInt64 (amount * 100)
  rw [unitPrice_eq inRange positive, uint64_of_nonneg small gain,
    ← Int.tdiv_eq_ediv_of_nonneg gain, (small.tdiv positive).int64]

theorem unitPrice_one (amount : ℤ) : unitPrice 1 amount = (int64 (amount * 100)).tdiv 1 := by
  rw [unitPrice_eq (by decide) (by decide), Int.ediv_one, Int.tdiv_one]
  exact int64_unique (uint64_modEq _) (int64_inInt64 _)

theorem unitPrice_of_loss {quantity amount : ℤ} (inRange : InInt64 quantity)
    (several : 1 < quantity) (loss : int64 (amount * 100) < 0) :
    unitPrice quantity amount = (int64 (amount * 100) + 2 ^ 64) / quantity := by
  have lower := (int64_inInt64 (amount * 100)).1
  rw [unitPrice_eq inRange (by omega), uint64_of_neg (int64_inInt64 _) loss]
  apply int64_eq
  · have nonneg := Int.ediv_nonneg (a := int64 (amount * 100) + 2 ^ 64) (b := quantity)
      (by omega) (by omega)
    omega
  · rw [Int.ediv_lt_iff_lt_mul (by omega)]
    omega

theorem near_of_loss_iff {quantity amount : ℤ} (inRange : InInt64 quantity)
    (several : 1 < quantity) (loss : int64 (amount * 100) < 0) :
    |(int64 (amount * 100)).tdiv quantity - unitPrice quantity amount| ≤ 1 ↔
      2 ^ 64 - 2 * quantity < -int64 (amount * 100) ∧ -int64 (amount * 100) < quantity := by
  rw [unitPrice_of_loss inRange several loss, tdiv_of_nonpos loss.le]
  have lower := (int64_inInt64 (amount * 100)).1
  have upper := inRange.2
  generalize int64 (amount * 100) = x at loss lower
  have above : 1 ≤ (x + 2 ^ 64) / quantity := by
    rw [Int.le_ediv_iff_mul_le (by omega)]
    omega
  have below : 0 ≤ -x / quantity := Int.ediv_nonneg (by omega) (by omega)
  have single : (x + 2 ^ 64) / quantity < 2 ↔ x + 2 ^ 64 < 2 * quantity :=
    Int.ediv_lt_iff_lt_mul (by omega)
  have nothing : -x / quantity < 1 ↔ -x < 1 * quantity := Int.ediv_lt_iff_lt_mul (by omega)
  constructor
  · intro near
    have far := (abs_le.mp near).1
    have first := single.mp (by omega)
    have second := nothing.mp (by omega)
    exact ⟨by omega, by omega⟩
  · rintro ⟨first, second⟩
    have tiny := single.mpr (by omega)
    have zero := nothing.mpr (by omega)
    exact abs_le.mpr ⟨by omega, by omega⟩

theorem long_reverse (valid : p.side ≠ .invalid) :
    ({ p with side := p.side.reverse } : Position).Long ↔ ¬ p.Long := by
  unfold Long
  by_cases base : p.dealtCurrency = p.instrument.baseCCY
  · rcases side : p.side <;> simp_all [Side.reverse]
  · rcases side : p.side <;> simp_all [Side.reverse]

theorem signed_reverse (valid : p.side ≠ .invalid) (x : ℤ) :
    ({ p with side := p.side.reverse } : Position).signed x = -p.signed x := by
  unfold signed
  by_cases long : p.Long
  · rw [if_neg fun reversed => (long_reverse valid).mp reversed long, if_pos long]
  · rw [if_pos ((long_reverse valid).mpr long), if_neg long, neg_neg]

theorem abs_signed (x : ℤ) : |p.signed x| = |x| := by
  unfold signed
  split
  · rfl
  · exact abs_neg x

theorem executedPrice_eq (fits : p.PriceFits) (filled : 0 < p.quantities qsFilled) :
    p.executedPrice = p.price - p.signed (p.scaledPnl.tdiv (p.quantities qsFilled)) := by
  unfold executedPrice
  rw [if_pos filled]
  exact int64_unique ((p.sign_modEq rfl).sub_left _) fits.1

theorem cancel_price (fits : p.PriceFits) (valid : p.side ≠ .invalid)
    (filled : 0 < p.quantities qsFilled) :
    (p.cancel true).price =
      p.price - p.signed (unitPrice (p.quantities qsFilled) p.pnl) := by
  have signed := sign_modEq { p with side := p.side.reverse }
    (Int.ModEq.refl (n := 2 ^ 64) (unitPrice (p.quantities qsFilled) p.pnl))
  rw [signed_reverse valid] at signed
  rw [cancel_filled filled]
  exact int64_unique (signed.add_left p.price) fits.2

theorem near_iff (fits : p.PriceFits) (valid : p.side ≠ .invalid) (inRange : p.InRange)
    (filled : 0 < p.quantities qsFilled) :
    |(p.cancel true).price - p.executedPrice| ≤ 1 ↔ p.MadeNoLoss := by
  have difference : (p.cancel true).price - p.executedPrice =
      p.signed (p.scaledPnl.tdiv (p.quantities qsFilled) -
        unitPrice (p.quantities qsFilled) p.pnl) := by
    rw [cancel_price fits valid filled, executedPrice_eq fits filled]
    unfold signed
    split <;> ring
  rw [difference, abs_signed]
  unfold MadeNoLoss scaledPnl
  by_cases gain : 0 ≤ int64 (p.pnl * 100)
  · simp [unitPrice_of_gain (inRange qsFilled) filled gain, gain]
  · by_cases one : p.quantities qsFilled = 1
    · simp [one, unitPrice_one]
    · rw [near_of_loss_iff (inRange qsFilled) (by omega) (not_le.mp gain)]
      simp [gain, one]

theorem reopens_iff (fits : p.PriceFits) (inRange : p.InRange)
    (filled : 0 < p.quantities qsFilled) :
    p.Reopens ↔ p.side ≠ .invalid ∧ p.MadeNoLoss := by
  have flips : (p.cancel true).side = p.side.reverse := by
    rw [cancel_filled filled]
    rfl
  constructor
  · intro reopens
    have valid : p.side ≠ .invalid := by
      intro invalid
      simpa [invalid, Side.Opposite] using reopens.side
    exact ⟨valid, (near_iff fits valid inRange filled).mp reopens.price⟩
  · rintro ⟨valid, noLoss⟩
    refine ⟨?_, ?_, ?_, ?_, (near_iff fits valid inRange filled).mpr noLoss⟩
    · rw [flips]
      cases side : p.side with
      | invalid => exact absurd side valid
      | buy => exact .inl ⟨rfl, rfl⟩
      | sell => exact .inr ⟨rfl, rfl⟩
    · rw [cancel_filled filled]
      simp
    · rw [cancel_filled filled]
      simp
    · rw [cancel_filled filled]
      rfl

theorem InRange.setQuantity (inRange : p.InRange) (state : QtyState) {qty : ℤ}
    (small : InInt64 qty) : (p.setQuantity state qty).InRange := by
  intro other
  rw [quantities_setQuantity]
  by_cases same : other = state
  · rw [same, Function.update_self]
    exact small
  · rw [Function.update_of_ne same]
    exact inRange other

theorem InRange.moveQuantity (inRange : p.InRange) (qty : ℤ) (qsFrom qsTo : QtyState) :
    (p.moveQuantity qty qsFrom qsTo).2.InRange := by
  unfold Position.moveQuantity
  split
  · exact (inRange.setQuantity qsFrom (int64_inInt64 _)).setQuantity qsTo (int64_inInt64 _)
  · exact inRange

theorem InRange.fillFrom (inRange : p.InRange) (qsFrom : QtyState) (qty price : ℤ) :
    (p.fillFrom qsFrom qty price).2.InRange := by
  have moved := inRange.moveQuantity qty qsFrom qsFilled
  unfold Position.fillFrom
  split
  · simp only
    generalize p.moveQuantity qty qsFrom qsFilled = result at moved ⊢
    obtain ⟨ok, p'⟩ := result
    cases ok with
    | true => exact moved
    | false => exact moved
  · exact inRange

theorem InRange.canceledFill (inRange : p.InRange) (qty price : ℤ) :
    (p.canceledFill qty price).2.InRange := by
  obtain refused | ⟨-, -, average, filled⟩ := p.canceledFill_cases qty price
  · rw [refused]
    exact inRange
  · rw [filled]
    exact inRange.moveQuantity qty qsPending qsOpen

theorem InRange.cancel (inRange : p.InRange) (revertFilled : Bool) :
    (p.cancel revertFilled).InRange := by
  have zero : InInt64 0 := by decide
  unfold Position.cancel
  cases revertFilled with
  | false => exact inRange.setQuantity qsOpen zero
  | true =>
      simp only [if_true, true_and]
      split
      · have reopened := inRange.setQuantity qsOpen (inRange qsFilled)
        exact reopened.setQuantity qsFilled zero
      · exact inRange.setQuantity qsOpen zero

theorem InRange.step (reg : Registry) (inRange : p.InRange) (op : Operation) :
    (p.step reg op).InRange := by
  cases op with
  | order qty =>
      change (p.order qty).2.InRange
      obtain refused | ⟨-, moved⟩ := p.order_cases qty
      · rw [refused]
        exact inRange
      · rw [moved]
        exact inRange.moveQuantity qty qsOpen qsPending
  | fill qty price => exact inRange.fillFrom qsPending qty price
  | directFill qty price => exact inRange.fillFrom qsOpen qty price
  | reject qty =>
      change (p.reject qty).2.InRange
      obtain refused | ⟨-, moved⟩ := p.reject_cases qty
      · rw [refused]
        exact inRange
      · rw [moved]
        exact inRange.moveQuantity qty qsPending qsOpen
  | canceledFill qty price => exact inRange.canceledFill qty price
  | canceledReject qty =>
      change (p.canceledReject qty).2.InRange
      obtain refused | ⟨-, rejected⟩ := p.canceledReject_cases qty
      · rw [refused]
        exact inRange
      · rw [rejected]
        exact inRange.setQuantity qsPending (int64_inInt64 _)
  | cancel revertFilled => exact inRange.cancel revertFilled
  | cancelOpenQty qty allOrNothing =>
      change (p.cancelOpenQty qty allOrNothing).2.InRange
      obtain refused | ⟨canceled, -, -, cancels⟩ := p.cancelOpenQty_cases qty allOrNothing
      · rw [refused]
        exact inRange
      · rw [cancels]
        exact inRange.setQuantity qsOpen (int64_inInt64 _)
  | addOpenQuantity side price qty =>
      change (p.addOpenQuantity reg side price qty).2.InRange
      obtain refused | ⟨-, accepted⟩ | ⟨-, average, raised⟩ :=
        p.addOpenQuantity_cases reg side price qty
      · rw [refused]
        exact inRange
      · rw [accepted]
        exact inRange
      · rw [raised]
        exact InRange.setQuantity (p := { p with price := average }) inRange qsOpen
          (int64_inInt64 _)
  | reduceOpenQuantity qty =>
      change (p.reduceOpenQuantity qty).2.InRange
      obtain refused | ⟨-, reduced⟩ := p.reduceOpenQuantity_cases qty
      · rw [refused]
        exact inRange
      · rw [reduced]
        exact inRange.setQuantity qsOpen (int64_inInt64 _)
  | skim => exact inRange.setQuantity qsFilled (by decide)

/-- In every state of a run, a cancel reopens what is filled at the executed price exactly if no
loss has been made. -/
theorem reopens_iff_madeNoLoss (reg : Registry) (start : Position) (inRange : start.InRange)
    (ops : List Operation) :
    Always (step reg)
      (fun p => p.PriceFits → 0 < p.quantities qsFilled →
        (p.Reopens ↔ p.side ≠ .invalid ∧ p.MadeNoLoss)) start ops := by
  have keep : ∀ (p : Position) op, True → p.InRange → (p.step reg op).InRange :=
    fun p op _ inRange => inRange.step reg op
  have always := always_of_invariant keep inRange (along_of_each (fun _ _ => trivial) start ops)
  exact always.mono fun p inRange fits filled => reopens_iff fits inRange filled

instance (p : Position) : Decidable p.PriceFits := inferInstanceAs (Decidable (_ ∧ _))

def hundred : Position := create eurUsd Currency.eur .buy 100 100

theorem hundred_inRange : hundred.InRange := by
  intro state
  cases state <;> decide

theorem reopens_filledBelow :
    (run (step noCurrencies) hundred [.directFill 40 90, .order 60, .fill 50 95]).Reopens := by
  have exactly := reopens_iff_madeNoLoss noCurrencies hundred hundred_inRange
    [.directFill 40 90, .order 60, .fill 50 95]
  exact (exactly.last (by decide +kernel) (by decide +kernel)).mpr
    ⟨by decide +kernel, .inl (by decide +kernel)⟩

theorem loss_reopensFarOff :
    ¬ ∀ (reg : Registry) (start : Position), start.InRange → start.side ≠ .invalid →
      ∀ ops : List Operation, Always (step reg)
        (fun p => p.PriceFits → 0 < p.quantities qsFilled → p.Reopens) start ops := by
  intro always
  have reopens := (always noCurrencies hundred hundred_inRange (by decide)
    [.directFill 100 200]).last (by decide +kernel) (by decide +kernel)
  have executed : (run (step noCurrencies) hundred [.directFill 100 200]).executedPrice = 200 := by
    decide +kernel
  have price : ((run (step noCurrencies) hundred [.directFill 100 200]).cancel true).price =
      -184467440737095316 := by decide +kernel
  have near := reopens.price
  rw [executed, price] at near
  norm_num at near

end Position

end SpotGridBot.Utils
