import Mathlib.Algebra.Order.Field.Rat
import Mathlib.Algebra.Order.AbsoluteValue.Basic
import Mathlib.Data.Int.Log
import Mathlib.Data.Rat.Floor
import Mathlib.Tactic.FieldSimp
import Mathlib.Tactic.Linarith
import Mathlib.Tactic.Positivity
import Mathlib.Tactic.Ring

namespace SpotGridBot.Rounding

def Rounds (u : ℚ) (nearest : ℚ → ℚ) : Prop := ∀ x, |nearest x - x| ≤ u * |x|

/-- `x` is `y` after `k` roundings. -/
def Near (u : ℚ) (k : ℕ) (x y : ℚ) : Prop :=
  ∃ ρ, (1 - u) ^ k ≤ ρ ∧ ρ * (1 - u) ^ k ≤ 1 ∧ x = y * ρ

section Near
variable {u : ℚ} {k l : ℕ} {x x' y y' : ℚ}

theorem Near.refl (u x : ℚ) : Near u 0 x x := ⟨1, by simp, by simp, by simp⟩

theorem Rounds.factor {nearest : ℚ → ℚ} (rounds : Rounds u nearest) (nonneg : 0 ≤ u)
    (less : u < 1) (x : ℚ) :
    ∃ ρ, 1 - u ≤ ρ ∧ ρ * (1 - u) ≤ 1 ∧ nearest x = x * ρ := by
  have small := rounds x
  by_cases zero : x = 0
  · subst zero
    have same : nearest 0 = 0 := by simpa using small
    exact ⟨1, by linarith, by linarith, by rw [same, zero_mul]⟩
  · refine ⟨nearest x / x, ?_, ?_, by field_simp⟩
    all_goals
      have near : |nearest x / x - 1| ≤ u := by
        have split : nearest x / x - 1 = (nearest x - x) / x := by field_simp
        rw [split, abs_div, div_le_iff₀ (abs_pos.mpr zero)]
        exact small
      obtain ⟨below, above⟩ := abs_le.mp near
    · linarith
    · have scaled := mul_le_mul_of_nonneg_right above (sub_nonneg.mpr less.le)
      nlinarith only [scaled, sq_nonneg u]

variable (less : u < 1)
include less

theorem Near.mul (near : Near u k x y) (near' : Near u l x' y') :
    Near u (k + l) (x * x') (y * y') := by
  obtain ⟨ρ, low, high, rfl⟩ := near
  obtain ⟨σ, low', high', rfl⟩ := near'
  have pos : ∀ n : ℕ, 0 < (1 - u) ^ n := fun n => pow_pos (by linarith) n
  refine ⟨ρ * σ, ?_, ?_, by ring⟩
  · rw [pow_add]
    exact mul_le_mul low low' (pos l).le ((pos k).le.trans low)
  · calc ρ * σ * (1 - u) ^ (k + l) = (ρ * (1 - u) ^ k) * (σ * (1 - u) ^ l) := by
          rw [pow_add]
          ring
      _ ≤ 1 * 1 := mul_le_mul high high'
          (mul_nonneg ((pos l).le.trans low') (pos l).le) zero_le_one
      _ = 1 := one_mul 1

theorem Near.inv (near : Near u k x y) : Near u k x⁻¹ y⁻¹ := by
  obtain ⟨ρ, low, high, rfl⟩ := near
  have pos : 0 < (1 - u) ^ k := pow_pos (by linarith) k
  have posρ : 0 < ρ := pos.trans_le low
  refine ⟨ρ⁻¹, ?_, ?_, by rw [mul_inv]⟩
  · rw [le_inv_comm₀ pos posρ, ← one_div, le_div_iff₀ pos]
    exact high
  · rw [inv_mul_le_iff₀ posρ, mul_one]
    exact low

theorem Near.div (near : Near u k x y) (near' : Near u l x' y') :
    Near u (k + l) (x / x') (y / y') := by
  rw [div_eq_mul_inv, div_eq_mul_inv]
  exact near.mul less (near'.inv less)

theorem Near.round {nearest : ℚ → ℚ} (rounds : Rounds u nearest) (nonneg : 0 ≤ u)
    (near : Near u k x y) : Near u (k + 1) (nearest x) y := by
  obtain ⟨σ, low, high, same⟩ := rounds.factor nonneg less x
  have pos : 0 < 1 - u := by linarith
  obtain ⟨ρ, low', high', rfl⟩ := near
  have once : Near u 1 σ 1 := ⟨σ, by simpa using low, by simpa using high, by ring⟩
  have before : Near u k ρ 1 := ⟨ρ, low', high', by ring⟩
  obtain ⟨τ, low'', high'', product⟩ := before.mul less once
  refine ⟨τ, low'', high'', ?_⟩
  rw [same, mul_assoc, product]
  ring

theorem Near.error (near : Near u k x y) : |x - y| ≤ (((1 - u) ^ k)⁻¹ - 1) * |y| := by
  obtain ⟨ρ, low, high, rfl⟩ := near
  have pos : 0 < (1 - u) ^ k := pow_pos (by linarith) k
  have above : ρ ≤ ((1 - u) ^ k)⁻¹ := by
    rw [← one_div, le_div_iff₀ pos]
    exact high
  have split : y * ρ - y = (ρ - 1) * y := by ring
  rw [split, abs_mul]
  apply mul_le_mul_of_nonneg_right _ (abs_nonneg y)
  rw [abs_le]
  refine ⟨?_, by linarith⟩
  have inverse : ((1 - u) ^ k)⁻¹ * (1 - u) ^ k = 1 := inv_mul_cancel₀ pos.ne'
  have both : 2 ≤ ((1 - u) ^ k)⁻¹ + (1 - u) ^ k := by
    nlinarith only [inverse, sq_nonneg (((1 - u) ^ k)⁻¹ - (1 - u) ^ k), inv_pos.mpr pos, pos]
  linarith

theorem Near.error_add {z : ℚ} (near : Near u k x y) (near' : Near u k x' y')
    (sum : Near u l z (x + x')) :
    |z - (y + y')| ≤ (((1 - u) ^ (k + l))⁻¹ - 1) * (|y| + |y'|) := by
  obtain ⟨ρ, low, high, rfl⟩ := sum
  have factor : Near u l ρ 1 := ⟨ρ, low, high, by ring⟩
  have first := (near.mul less factor).error less
  have second := (near'.mul less factor).error less
  rw [mul_one] at first second
  calc |(x + x') * ρ - (y + y')| = |(x * ρ - y) + (x' * ρ - y')| := by ring_nf
    _ ≤ |x * ρ - y| + |x' * ρ - y'| := abs_add_le _ _
    _ ≤ _ := by linarith

end Near

def roundHalfEven (x : ℚ) : ℤ :=
  let below := ⌊x⌋
  if x - below < 1 / 2 ∨ x - below = 1 / 2 ∧ below % 2 = 0 then below else below + 1

theorem roundHalfEven_int (n : ℤ) : roundHalfEven n = n := by
  simp [roundHalfEven]

theorem roundHalfEven_near (x : ℚ) : |(roundHalfEven x : ℚ) - x| ≤ 1 / 2 := by
  have below := Int.floor_le x
  have above := Int.lt_floor_add_one x
  unfold roundHalfEven
  simp only
  split
  next down =>
    have half : x - ⌊x⌋ ≤ 1 / 2 := by
      rcases down with less | ⟨same, -⟩
      · exact less.le
      · exact same.le
    exact abs_le.mpr ⟨by linarith, by linarith⟩
  next up =>
    have half : 1 / 2 ≤ x - ⌊x⌋ := not_lt.mp fun less => up (.inl less)
    push_cast
    exact abs_le.mpr ⟨by linarith, by linarith⟩

/-- Rounding to 53 bits. -/
def toDouble (x : ℚ) : ℚ :=
  let unit : ℚ := 2 ^ (Int.log 2 |x| - 52)
  roundHalfEven (x / unit) * unit

theorem toDouble_rounds : Rounds (1 / 2 ^ 53) toDouble := by
  intro x
  by_cases zero : x = 0
  · subst zero
    simp [toDouble, roundHalfEven]
  · have large : (2 : ℚ) ^ Int.log 2 |x| ≤ |x| := by
      exact_mod_cast Int.zpow_log_le_self (by norm_num) (abs_pos.mpr zero)
    have pos : (0 : ℚ) < 2 ^ (Int.log 2 |x| - 52) := zpow_pos two_pos _
    have near := roundHalfEven_near (x / 2 ^ (Int.log 2 |x| - 52))
    have split : toDouble x - x = (roundHalfEven (x / 2 ^ (Int.log 2 |x| - 52)) -
        x / 2 ^ (Int.log 2 |x| - 52)) * 2 ^ (Int.log 2 |x| - 52) := by
      unfold toDouble
      field_simp
    rw [split, abs_mul, abs_of_pos pos]
    calc _ ≤ 1 / 2 * (2 : ℚ) ^ (Int.log 2 |x| - 52) := mul_le_mul_of_nonneg_right near pos.le
      _ = 1 / 2 ^ 53 * (2 : ℚ) ^ Int.log 2 |x| := by
        rw [zpow_sub₀ (by norm_num)]
        norm_num
        ring
      _ ≤ 1 / 2 ^ 53 * |x| := by gcongr

example : toDouble (toDouble (12 / 10) + toDouble (toDouble (39 / 10) - toDouble (12 / 10))) ≠
    toDouble (39 / 10) := by decide +kernel

end SpotGridBot.Rounding
