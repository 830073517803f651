import SpotGridBot.Lib.Outcome
import Mathlib.Data.List.Infix

/-!
# Loops over a vector that they append to

A range-for goes over the storage that the vector has when the loop starts. An element appended to
full storage moves the vector, and what the loop reads of the old storage from then on is undefined.
-/

namespace SpotGridBot.Growing
variable {σ α : Type*}

/-- `none` where the storage was moved. -/
def rangeFor (elements : σ → List α) (body : σ → α → Outcome σ) (capacity : ℕ) :
    ℕ → ℕ → σ → Option (Outcome σ)
  | 0, _, s => some (.done s)
  | left + 1, position, s =>
      match (elements s)[position]? with
      | none => none
      | some a =>
          let outcome := body s a
          if (elements outcome.state).length ≤ capacity then
            match outcome with
            | .done s => rangeFor elements body capacity left (position + 1) s
            | .thrown s => some (.thrown s)
          else none

/-- The room after `push_back`; how much more than needed is the library's choice. -/
def pushBack (spare : ℕ → ℕ) (size capacity : ℕ) : ℕ :=
  if size < capacity then capacity else size + 1 + spare size

def pushBacks (spare : ℕ → ℕ) : ℕ → ℕ → ℕ → ℕ
  | 0, _, capacity => capacity
  | n + 1, size, capacity => pushBacks spare n (size + 1) (pushBack spare size capacity)

def doubling (size : ℕ) : ℕ := size - 1

example : (List.range 6).map (fun n => pushBacks doubling n 0 0) = [0, 1, 2, 4, 4, 8] := by decide

theorem fits_pushBacks (spare : ℕ → ℕ) (n : ℕ) {size capacity : ℕ} (fits : size ≤ capacity) :
    size + n ≤ pushBacks spare n size capacity := by
  induction n generalizing size capacity with
  | zero => exact fits
  | succ n ih =>
      have next : size + 1 ≤ pushBack spare size capacity := by
        unfold pushBack
        split <;> omega
      have later := ih next
      rw [pushBacks]
      omega

section RangeFor
variable {elements : σ → List α} {body : σ → α → Outcome σ} {pushes : σ → α → Prop}
  [∀ s a, Decidable (pushes s a)] {capacity : ℕ} {s : σ} {as : List α}

def Appends (elements : σ → List α) (body : σ → α → Outcome σ) (pushes : σ → α → Prop)
    [∀ s a, Decidable (pushes s a)] : Prop :=
  ∀ s a, ∃ tracked, elements (body s a).state = elements s ++ tracked ∧
    tracked.length = if pushes s a then 1 else 0

theorem rangeFor_from (appends : Appends elements body pushes) {position : ℕ}
    (ahead : as <+: (elements s).drop position) (fits : (elements s).length ≤ capacity) :
    rangeFor elements body capacity as.length position s =
      if ∀ v ∈ Outcome.iterations body s as, pushes v.1 v.2 → (elements v.1).length < capacity
      then some (Outcome.forEach body s as) else none := by
  induction as generalizing s position with
  | nil => simp [rangeFor, Outcome.iterations, Outcome.forEach]
  | cons a as ih =>
      obtain ⟨rest, split⟩ := ahead
      have here : (elements s)[position]? = some a := by
        rw [← List.head?_drop, ← split]
        rfl
      have behind : as <+: (elements s).drop (position + 1) := by
        rw [← List.tail_drop, ← split]
        exact ⟨rest, rfl⟩
      obtain ⟨tracked, appended, count⟩ := appends s a
      have room : (elements (body s a).state).length ≤ capacity ↔
          (pushes s a → (elements s).length < capacity) := by
        rw [appended, List.length_append, count]
        by_cases push : pushes s a
        · simp only [push, if_true, true_imp_iff]
          omega
        · simpa [push] using fits
      simp only [List.length_cons, rangeFor, here, Outcome.iterations, Outcome.forEach_cons,
        List.forall_mem_cons, room]
      by_cases fitted : pushes s a → (elements s).length < capacity
      · have after := room.mpr fitted
        simp only [eq_true fitted, if_true, true_and]
        cases ran : body s a with
        | done s' =>
            rw [ran] at appended after
            have grown : elements s <+: elements s' := ⟨tracked, appended.symm⟩
            exact ih (behind.trans (grown.drop (position + 1))) after
        | thrown s' => simp
      · simp only [eq_false fitted, if_false, false_and]

theorem rangeFor_eq (appends : Appends elements body pushes)
    (fits : (elements s).length ≤ capacity) :
    rangeFor elements body capacity (elements s).length 0 s =
      if ∀ v ∈ Outcome.iterations body s (elements s),
        pushes v.1 v.2 → (elements v.1).length < capacity
      then some (Outcome.forEach body s (elements s)) else none :=
  rangeFor_from appends List.prefix_rfl fits

theorem fits_forEach (appends : Appends elements body pushes)
    (fits : (elements s).length ≤ capacity)
    (room : ∀ v ∈ Outcome.iterations body s as, pushes v.1 v.2 → (elements v.1).length < capacity) :
    (elements (Outcome.forEach body s as).state).length ≤ capacity := by
  induction as generalizing s with
  | nil => exact fits
  | cons a as ih =>
      simp only [Outcome.iterations, List.forall_mem_cons] at room
      obtain ⟨here, later⟩ := room
      obtain ⟨tracked, appended, count⟩ := appends s a
      have after : (elements (body s a).state).length ≤ capacity := by
        rw [appended, List.length_append, count]
        by_cases push : pushes s a
        · have := here push
          simp only [push, if_true]
          omega
        · simpa [push] using fits
      rw [Outcome.forEach_cons]
      cases ran : body s a with
      | done s' =>
          rw [ran] at after later
          exact ih after later
      | thrown s' =>
          rw [ran] at after
          exact after

end RangeFor

end SpotGridBot.Growing
