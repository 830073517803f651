import SpotGridBot.Lib.Fueled
import Mathlib.Algebra.Order.Ring.Int

namespace SpotGridBot.Probing
open Fueled

variable {taken : List ℤ}

def probe (taken : List ℤ) : ℕ → ℤ → ℤ
  | 0, n => n
  | fuel + 1, n => if n ∈ taken then probe taken fuel (n + 1) else n

theorem countP_succ_lt {n : ℤ} (member : n ∈ taken) :
    taken.countP (n + 1 ≤ ·) < taken.countP (n ≤ ·) := by
  apply countP_lt _ member
  · simp
  · simp
  · intro m _ above
    simp only [decide_eq_true_eq] at above ⊢
    omega

theorem probe_free (taken : List ℤ) {fuel : ℕ} {n : ℤ} (enough : taken.countP (n ≤ ·) ≤ fuel) :
    probe taken fuel n ∉ taken := by
  induction fuel generalizing n with
  | zero =>
      intro member
      have none := List.countP_eq_zero.mp (Nat.le_zero.mp enough) n member
      exact none (by simp)
  | succ fuel ih =>
      rw [probe]
      split_ifs with member
      · have fewer := countP_succ_lt member
        exact ih (by omega)
      · exact member

theorem probe_length_free (taken : List ℤ) (n : ℤ) : probe taken taken.length n ∉ taken :=
  probe_free taken List.countP_le_length

theorem le_probe (taken : List ℤ) (fuel : ℕ) (n : ℤ) : n ≤ probe taken fuel n := by
  induction fuel generalizing n with
  | zero => exact le_rfl
  | succ fuel ih =>
      rw [probe]
      split_ifs with member
      · have later := ih (n + 1)
        omega
      · exact le_rfl

theorem mem_of_lt_probe {fuel : ℕ} {n m : ℤ} (above : n ≤ m) (below : m < probe taken fuel n) :
    m ∈ taken := by
  induction fuel generalizing n with
  | zero =>
      rw [probe] at below
      omega
  | succ fuel ih =>
      rw [probe] at below
      split_ifs at below with member
      · by_cases first : m = n
        · exact first ▸ member
        · exact ih (by omega) below
      · omega

end SpotGridBot.Probing
