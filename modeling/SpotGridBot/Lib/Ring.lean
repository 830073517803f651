import Mathlib.Data.Nat.Notation
import Mathlib.Tactic.SplitIfs

namespace SpotGridBot.Ring
variable {n i j : ℕ}

def next (n slot : ℕ) : ℕ := if slot < n - 1 then slot + 1 else 0

def distance (n first last : ℕ) : ℕ := if first ≤ last then last - first else last + n - first

theorem next_mod (pos : 0 < n) (i : ℕ) : next n (i % n) = (i + 1) % n := by
  have below := Nat.mod_lt i pos
  rw [Nat.add_mod_eq_ite]
  unfold next
  cases n with
  | zero => contradiction
  | succ n =>
      cases n with
      | zero => simp [Nat.mod_one]
      | succ n =>
          rw [Nat.mod_eq_of_lt (by omega : 1 < n + 1 + 1)]
          split_ifs <;> omega

theorem mod_add_of_lt (i : ℕ) (small : j < n) :
    (i + j) % n = if n ≤ i % n + j then i % n + j - n else i % n + j := by
  rw [Nat.add_mod_eq_ite, Nat.mod_eq_of_lt small]

theorem distance_mod (ordered : i ≤ j) (near : j < i + n) : distance n (i % n) (j % n) = j - i := by
  obtain ⟨d, rfl⟩ := Nat.exists_eq_add_of_le ordered
  have below := Nat.mod_lt i (by omega : 0 < n)
  rw [mod_add_of_lt i (by omega : d < n)]
  unfold distance
  split_ifs <;> omega

theorem mod_ne (before : i < j) (near : j < i + n) : i % n ≠ j % n := by
  obtain ⟨d, rfl⟩ := Nat.exists_eq_add_of_le (Nat.le_of_lt before)
  have below := Nat.mod_lt i (by omega : 0 < n)
  rw [mod_add_of_lt i (by omega : d < n)]
  split_ifs <;> omega

end SpotGridBot.Ring
