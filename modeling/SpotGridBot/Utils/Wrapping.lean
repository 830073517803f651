import SpotGridBot.Utils.Position
import Mathlib.Data.Int.ModEq

namespace SpotGridBot.Utils

def InInt64 (x : ℤ) : Prop := -2 ^ 63 ≤ x ∧ x < 2 ^ 63

instance (x : ℤ) : Decidable (InInt64 x) := inferInstanceAs (Decidable (_ ∧ _))

theorem int64_inInt64 (x : ℤ) : InInt64 (int64 x) := by
  unfold InInt64 int64
  omega

theorem InInt64.int64 {x : ℤ} (inRange : InInt64 x) : int64 x = x :=
  int64_eq inRange.1 inRange.2

theorem int64_modEq (x : ℤ) : int64 x ≡ x [ZMOD 2 ^ 64] := by
  unfold int64 Int.ModEq
  omega

theorem uint64_modEq (x : ℤ) : uint64 x ≡ x [ZMOD 2 ^ 64] := Int.mod_modEq x _

theorem int64_congr {x y : ℤ} (same : x ≡ y [ZMOD 2 ^ 64]) : int64 x = int64 y := by
  unfold int64
  unfold Int.ModEq at same
  omega

theorem int64_unique {x y : ℤ} (same : x ≡ y [ZMOD 2 ^ 64]) (inRange : InInt64 y) :
    int64 x = y :=
  (int64_congr same).trans inRange.int64

theorem InInt64.eq_of_modEq {x y : ℤ} (inRange : InInt64 x) (same : x ≡ y [ZMOD 2 ^ 64])
    (inRange' : InInt64 y) : x = y :=
  inRange.int64.symm.trans (int64_unique same inRange')

theorem uint64_of_nonneg {x : ℤ} (inRange : InInt64 x) (nonneg : 0 ≤ x) : uint64 x = x :=
  Int.emod_eq_of_lt nonneg (by have := inRange.2; omega)

theorem uint64_of_neg {x : ℤ} (inRange : InInt64 x) (negative : x < 0) :
    uint64 x = x + 2 ^ 64 := by
  have lower := inRange.1
  unfold uint64
  omega

theorem tdiv_of_nonpos {x : ℤ} (nonpos : x ≤ 0) (q : ℤ) : x.tdiv q = -(-x / q) := by
  rw [← Int.tdiv_eq_ediv_of_nonneg (neg_nonneg.mpr nonpos), Int.neg_tdiv, neg_neg]

theorem InInt64.tdiv {x q : ℤ} (inRange : InInt64 x) (positive : 0 < q) : InInt64 (x.tdiv q) := by
  obtain ⟨lower, upper⟩ := inRange
  rcases le_total 0 x with nonneg | nonpos
  · have below := Int.tdiv_le_self q nonneg
    have above := Int.tdiv_nonneg nonneg positive.le
    exact ⟨by omega, by omega⟩
  · rw [tdiv_of_nonpos nonpos]
    have below := Int.ediv_le_self q (a := -x) (by omega)
    have above := Int.ediv_nonneg (a := -x) (by omega) positive.le
    exact ⟨by omega, by omega⟩

end SpotGridBot.Utils
