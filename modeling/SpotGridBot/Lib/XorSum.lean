import Mathlib.Algebra.Group.Nat.Even
import Mathlib.Data.List.Count
import Mathlib.Data.List.Dedup
import Mathlib.Data.Nat.Bitwise

namespace SpotGridBot.XorSum
variable {α : Type*} (f : α → ℕ)

def xorSum : List α → ℕ
  | [] => 0
  | a :: l => f a ^^^ xorSum l

theorem xorSum_append (l l' : List α) : xorSum f (l ++ l') = xorSum f l ^^^ xorSum f l' := by
  induction l with
  | nil => simp [xorSum]
  | cons a l ih => simp [xorSum, ih, Nat.xor_assoc]

theorem xorSum_perm {l l' : List α} (perm : l.Perm l') : xorSum f l = xorSum f l' := by
  induction perm with
  | nil => rfl
  | cons a _ ih => simp [xorSum, ih]
  | swap a b l => exact Nat.xor_left_comm _ _ _
  | trans _ _ ih ih' => exact ih.trans ih'

variable [DecidableEq α]

def oddly (l : List α) : List α := l.dedup.filter fun a => Odd (l.count a)

def toggle (a : α) (l : List α) : List α := if a ∈ l then l.erase a else a :: l

theorem xorSum_toggle (a : α) (l : List α) : xorSum f (toggle a l) = f a ^^^ xorSum f l := by
  unfold toggle
  split
  next member =>
    rw [xorSum_perm f (List.perm_cons_erase member), xorSum, ← Nat.xor_assoc, Nat.xor_self,
      Nat.zero_xor]
  next => rfl

theorem toggle_nodup {a : α} {l : List α} (nodup : l.Nodup) : (toggle a l).Nodup := by
  unfold toggle
  split
  next => exact nodup.erase a
  next absent => exact List.nodup_cons.mpr ⟨absent, nodup⟩

theorem mem_toggle {a b : α} {l : List α} (nodup : l.Nodup) :
    a ∈ toggle b l ↔ if b = a then a ∉ l else a ∈ l := by
  unfold toggle
  split
  next member =>
    rw [nodup.mem_erase_iff]
    by_cases same : b = a
    · subst same
      simp [member]
    · simp [same, Ne.symm same]
  next absent =>
    rw [List.mem_cons]
    by_cases same : b = a
    · subst same
      simp [absent]
    · simp [same, Ne.symm same]

theorem oddly_nodup (l : List α) : (oddly l).Nodup := (List.nodup_dedup l).filter _

theorem mem_oddly {a : α} {l : List α} : a ∈ oddly l ↔ Odd (l.count a) := by
  have present : Odd (l.count a) → a ∈ l := by
    rintro ⟨k, odd⟩
    exact List.count_pos_iff.mp (by omega)
  simpa [oddly] using present

theorem oddly_cons_perm (a : α) (l : List α) : (oddly (a :: l)).Perm (toggle a (oddly l)) := by
  refine (List.perm_ext_iff_of_nodup (oddly_nodup _) (toggle_nodup (oddly_nodup l))).mpr fun b => ?_
  rw [mem_toggle (oddly_nodup l), mem_oddly, mem_oddly, List.count_cons]
  by_cases same : a = b
  · simp [same, Nat.odd_add_one]
  · simp [same]

theorem xorSum_oddly (l : List α) : xorSum f (oddly l) = xorSum f l := by
  induction l with
  | nil => rfl
  | cons a l ih => rw [xorSum_perm f (oddly_cons_perm a l), xorSum_toggle, ih, xorSum]

end SpotGridBot.XorSum
