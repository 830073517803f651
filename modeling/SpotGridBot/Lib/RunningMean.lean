import Mathlib.Algebra.Order.Ring.Int
import Mathlib.Algebra.BigOperators.Group.List.Basic
import Mathlib.Algebra.Order.Field.Basic
import Mathlib.Algebra.Order.Field.Rat
import Mathlib.Tactic.FieldSimp
import Mathlib.Tactic.Linarith
import Mathlib.Tactic.LinearCombination
import Mathlib.Tactic.Ring

namespace SpotGridBot.RunningMean

def update (mean weight x c : ℤ) : ℤ := mean + ((x - mean) * c).tdiv (weight + c)

variable {mean weight x c sum : ℤ}

theorem update_first (positive : 0 < c) : update 0 0 x c = x := by
  unfold update
  rw [sub_zero, zero_add, zero_add, Int.mul_tdiv_cancel x positive.ne']

theorem update_of_le (nonneg : 0 ≤ weight) (positive : 0 < c) (below : mean ≤ x) :
    mean ≤ update mean weight x c ∧ update mean weight x c ≤ x := by
  have total : 0 < weight + c := by omega
  have lower := Int.tdiv_nonneg (mul_nonneg (sub_nonneg.mpr below) positive.le) total.le
  have upper : ((x - mean) * c).tdiv (weight + c) ≤ x - mean := by
    have more : (x - mean) * c ≤ (x - mean) * (weight + c) :=
      mul_le_mul_of_nonneg_left (by omega) (sub_nonneg.mpr below)
    have quotients := Int.tdiv_le_tdiv total more
    rwa [Int.mul_tdiv_cancel _ total.ne'] at quotients
  unfold update
  omega

theorem update_of_ge (nonneg : 0 ≤ weight) (positive : 0 < c) (above : x ≤ mean) :
    x ≤ update mean weight x c ∧ update mean weight x c ≤ mean := by
  have mirrored : update mean weight x c = -update (-mean) weight (-x) c := by
    unfold update
    rw [show (-x - -mean) * c = -((x - mean) * c) by ring, Int.neg_tdiv]
    ring
  have bounds := update_of_le nonneg positive (neg_le_neg above)
  rw [mirrored]
  omega

theorem update_error (nonneg : 0 ≤ weight) (positive : 0 < c) {k : ℤ}
    (error : |mean * weight - sum| ≤ k * weight) (count : 0 ≤ k) :
    |update mean weight x c * (weight + c) - (sum + x * c)| < (k + 1) * (weight + c) := by
  have total : 0 < weight + c := by omega
  have division := Int.mul_tdiv_add_tmod ((x - mean) * c) (weight + c)
  have remainder : |((x - mean) * c).tmod (weight + c)| < weight + c :=
    abs_lt.mpr ⟨Int.lt_tmod_of_pos _ total, Int.tmod_lt_of_pos _ total⟩
  have carried : update mean weight x c * (weight + c) - (sum + x * c) =
      mean * weight - sum - ((x - mean) * c).tmod (weight + c) := by
    unfold update
    linear_combination division
  have scaled : k * weight ≤ k * (weight + c) := mul_le_mul_of_nonneg_left (by omega) count
  calc |update mean weight x c * (weight + c) - (sum + x * c)|
      ≤ |mean * weight - sum| + |((x - mean) * c).tmod (weight + c)| := by
        rw [carried]
        exact abs_sub _ _
    _ < k * weight + (weight + c) := add_lt_add_of_le_of_lt error remainder
    _ ≤ (k + 1) * (weight + c) := by linarith

theorem error_div {k : ℤ} (positive : 0 < weight) (error : |mean * weight - sum| < k * weight) :
    |(mean : ℚ) - sum / weight| < k := by
  have positive : (0 : ℚ) < weight := by exact_mod_cast positive
  have error : |(mean : ℚ) * weight - sum| < k * weight := by exact_mod_cast error
  have scaled : (mean : ℚ) - sum / weight = (mean * weight - sum) / weight := by
    field_simp
  rw [scaled, abs_div, abs_of_pos positive, div_lt_iff₀ positive]
  exact error

end SpotGridBot.RunningMean
