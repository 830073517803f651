import SpotGridBot.Utils.Wrapping

namespace SpotGridBot.Utils.Position
open QtyState

theorem amount_of_nonneg {quantity price : ℤ} (inRange : InInt64 (price * quantity))
    (nonneg : 0 ≤ price * quantity) : amount quantity price = (price * quantity).tdiv 100 := by
  unfold amount
  rw [inRange.int64, uint64_of_nonneg inRange nonneg, ← Int.tdiv_eq_ediv_of_nonneg nonneg,
    (inRange.tdiv (by decide)).int64]

theorem amount_of_neg {quantity price : ℤ} (inRange : InInt64 (price * quantity))
    (negative : price * quantity < 0) :
    amount quantity price = (price * quantity + 2 ^ 64) / 100 := by
  have lower := inRange.1
  unfold amount
  rw [inRange.int64, uint64_of_neg inRange negative, int64_eq]
  · omega
  · omega

theorem amount_modEq (quantity price : ℤ) : ∃ lost, 0 ≤ lost ∧ lost < 100 ∧
    amount quantity price * 100 ≡ price * quantity - lost [ZMOD 2 ^ 64] := by
  generalize product : uint64 (int64 (price * quantity)) = value
  refine ⟨value % 100, Int.emod_nonneg _ (by decide), Int.emod_lt_of_pos _ (by decide), ?_⟩
  have same : value ≡ price * quantity [ZMOD 2 ^ 64] := by
    rw [← product]
    exact (uint64_modEq _).trans (int64_modEq _)
  have whole : value / 100 * 100 = value - value % 100 := by omega
  unfold amount
  rw [product]
  calc int64 (value / 100) * 100 ≡ value / 100 * 100 [ZMOD 2 ^ 64] :=
        (int64_modEq _).mul_right 100
    _ ≡ value - value % 100 [ZMOD 2 ^ 64] := by rw [whole]
    _ ≡ price * quantity - value % 100 [ZMOD 2 ^ 64] := same.sub_right _

variable (p : Position)

def signed (value : ℤ) : ℤ := if p.Long then value else -value

theorem sign_modEq {value value' : ℤ} (same : value ≡ value' [ZMOD 2 ^ 64]) :
    p.sign value ≡ p.signed value' [ZMOD 2 ^ 64] := by
  unfold sign signed
  split
  · exact same
  · exact (int64_modEq _).trans same.neg

theorem sign_inInt64 {value : ℤ} (inRange : InInt64 value) : InInt64 (p.sign value) := by
  unfold sign
  split
  · exact inRange
  · exact int64_inInt64 _

theorem sign_int64 {value : ℤ} (inRange : InInt64 (p.signed value)) :
    p.sign (int64 value) = p.signed value :=
  (p.sign_inInt64 (int64_inInt64 value)).eq_of_modEq (p.sign_modEq (int64_modEq value)) inRange

def Accepts (qsFrom : QtyState) (qty price : ℤ) : Prop :=
  0 < qty ∧ 0 < price ∧ qty ≤ p.quantities qsFrom

theorem fillFrom_eq (qsFrom : QtyState) (differ : qsFrom ≠ qsFilled) (qty price : ℤ) :
    (¬ p.Accepts qsFrom qty price ∧ p.fillFrom qsFrom qty price = (none, p)) ∨
    (p.Accepts qsFrom qty price ∧
      ∃ moved, p.moveQuantity qty qsFrom qsFilled = (true, moved) ∧
      p.fillFrom qsFrom qty price =
        (some (amount qty (p.sign (int64 (p.price - price)))),
          { moved with
            pnl := int64 (p.pnl + amount qty (p.sign (int64 (p.price - price)))) })) := by
  unfold fillFrom Accepts
  by_cases positive : qty > 0 ∧ price > 0
  · rw [if_pos positive]
    unfold moveQuantity
    by_cases enough : p.quantities qsFrom ≥ qty
    · rw [if_pos ⟨differ, enough⟩]
      exact .inr ⟨⟨positive.1, positive.2, enough⟩, _, rfl, rfl⟩
    · rw [if_neg fun moves => enough moves.2]
      exact .inl ⟨fun accepted => enough accepted.2.2, rfl⟩
  · rw [if_neg positive]
    exact .inl ⟨fun accepted => positive ⟨accepted.1, accepted.2.1⟩, rfl⟩

def profitOf (qty price : ℤ) : ℤ := (p.signed (p.price - price) * qty).tdiv 100

def Signed (qty price : ℤ) (result : Option ℤ × Position) : Prop :=
  ∀ profit, result.1 = some profit →
    profit = p.profitOf qty price ∧ int64 (result.2.pnl - p.pnl) = p.profitOf qty price

def NoLoss (price : ℤ) : Prop := 0 ≤ p.signed (p.price - price)

theorem signed_fillFrom_iff {qsFrom : QtyState} (differ : qsFrom ≠ qsFilled) {qty price : ℤ}
    (inRange : InInt64 (p.signed (p.price - price) * qty)) :
    p.Signed qty price (p.fillFrom qsFrom qty price) ↔
      (p.Accepts qsFrom qty price → p.NoLoss price) := by
  rcases p.fillFrom_eq qsFrom differ qty price with
    ⟨refused, filled⟩ | ⟨accepted, moved, -, filled⟩
  · simp [Signed, filled, refused]
  · have one : 1 ≤ qty := accepted.1
    have small : InInt64 (p.signed (p.price - price)) := by
      obtain ⟨lower, upper⟩ := inRange
      constructor <;> nlinarith
    have amountInRange : InInt64 (amount qty (p.signed (p.price - price))) := int64_inInt64 _
    have reported : p.Signed qty price (p.fillFrom qsFrom qty price) ↔
        amount qty (p.signed (p.price - price)) = p.profitOf qty price := by
      have change : int64 (int64 (p.pnl + amount qty (p.signed (p.price - price))) - p.pnl) =
          amount qty (p.signed (p.price - price)) := by
        apply int64_unique _ amountInRange
        calc int64 (p.pnl + amount qty (p.signed (p.price - price))) - p.pnl
            ≡ p.pnl + amount qty (p.signed (p.price - price)) - p.pnl [ZMOD 2 ^ 64] :=
              (int64_modEq _).sub_right _
          _ ≡ amount qty (p.signed (p.price - price)) [ZMOD 2 ^ 64] := by rw [add_sub_cancel_left]
      simp [Signed, filled, p.sign_int64 small, change]
    rw [reported]
    have divided : p.profitOf qty price = (p.signed (p.price - price) * qty).tdiv 100 := rfl
    constructor
    · intro same _
      by_contra loss
      have negative : p.signed (p.price - price) * qty < 0 :=
        mul_neg_of_neg_of_pos (not_le.mp loss) accepted.1
      have lower := inRange.1
      rw [amount_of_neg inRange negative, divided, tdiv_of_nonpos negative.le] at same
      omega
    · intro noLoss
      exact amount_of_nonneg inRange (mul_nonneg (noLoss accepted) accepted.1.le)

/-- What `Fill` and `DirectFill` report is the signed profit exactly of the fills they accept
without a loss. -/
theorem signed_iff_noLoss (p : Position) (qty price : ℤ)
    (inRange : InInt64 (p.signed (p.price - price) * qty)) :
    (p.Signed qty price (p.fill qty price) ↔ (p.Accepts qsPending qty price → p.NoLoss price)) ∧
    (p.Signed qty price (p.directFill qty price) ↔
      (p.Accepts qsOpen qty price → p.NoLoss price)) :=
  ⟨p.signed_fillFrom_iff (by decide) inRange, p.signed_fillFrom_iff (by decide) inRange⟩

def bought : Position := (create eurUsd Currency.eur .buy 1200000 1000).order 500 |>.2

theorem signed_winningFills :
    bought.Signed 100 1190000 (bought.fill 100 1190000) ∧
    bought.Signed 100 1190000 (bought.directFill 100 1190000) := by
  have exactly := signed_iff_noLoss bought 100 1190000 (by decide +kernel)
  have wins : bought.NoLoss 1190000 := by
    unfold NoLoss
    decide +kernel
  exact ⟨exactly.1.mpr fun _ => wins, exactly.2.mpr fun _ => wins⟩

theorem losingFill_reportsGain :
    ¬ ∀ (p : Position) (qty price : ℤ), InInt64 (p.signed (p.price - price) * qty) →
      p.Signed qty price (p.fill qty price) ∧ p.Signed qty price (p.directFill qty price) := by
  intro always
  have reported : (bought.fill 100 1210000).1 = some 184467440737085516 := by decide +kernel
  have profit := ((always bought 100 1210000 (by decide +kernel)).1 _ reported).1
  have loss : bought.profitOf 100 1210000 = -10000 := by decide +kernel
  rw [loss] at profit
  contradiction

end SpotGridBot.Utils.Position
