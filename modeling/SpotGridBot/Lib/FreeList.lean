import Mathlib.Data.List.Nodup
import Mathlib.Data.List.Range
import Mathlib.Logic.Function.Basic

namespace SpotGridBot.FreeList
variable {α : Type*}

def Linked (memory : α → α) : α → List α → Prop
  | _, [] => True
  | top, cell :: free => top = cell ∧ Linked memory (memory cell) free

variable {memory : α → α} {top : α} {free : List α}

theorem linked_places (place : ℕ → α) (n : ℕ) {start : ℕ}
    (links : ∀ ix, start ≤ ix → ix < start + n → memory (place ix) = place (ix + 1)) :
    Linked memory (place start) ((List.range' start n).map place) := by
  induction n generalizing start with
  | zero => trivial
  | succ n ih =>
      rw [List.range'_succ, List.map_cons]
      refine ⟨rfl, ?_⟩
      rw [links start le_rfl (by omega)]
      exact ih fun ix above below => links ix (by omega) (by omega)

variable [DecidableEq α]

theorem Linked.write (linked : Linked memory top free) {cell : α} (held : cell ∉ free) (link : α) :
    Linked (Function.update memory cell link) top free := by
  induction free generalizing top with
  | nil => trivial
  | cons first free ih =>
      obtain ⟨here, rest⟩ := linked
      obtain ⟨other, later⟩ := List.ne_and_not_mem_of_not_mem_cons held
      refine ⟨here, ?_⟩
      rw [Function.update_of_ne other.symm]
      exact ih rest later

theorem Linked.push (linked : Linked memory top free) {cell : α} (held : cell ∉ free) :
    Linked (Function.update memory cell top) cell (cell :: free) := by
  refine ⟨rfl, ?_⟩
  rw [Function.update_self]
  exact linked.write held top

end SpotGridBot.FreeList
