import Mathlib.Data.List.Infix
import Mathlib.Tactic.Ring

namespace SpotGridBot.Replace

variable {α : Type*} [DecidableEq α]

def replaceFrom (pattern new : List α) : ℕ → List α → List α
  | _, [] => []
  | skip + 1, _ :: text => replaceFrom pattern new skip text
  | 0, a :: text =>
      if pattern.isPrefixOf (a :: text) then
        new ++ replaceFrom pattern new (pattern.length - 1) text
      else a :: replaceFrom pattern new 0 text

def replace (pattern new text : List α) : List α := replaceFrom pattern new 0 text

def occurrences (pattern : List α) : ℕ → List α → ℕ × ℕ
  | _, [] => (0, 0)
  | skip + 1, _ :: text => occurrences pattern skip text
  | 0, a :: text =>
      if pattern.isPrefixOf (a :: text) then
        let (replaced, kept) := occurrences pattern (pattern.length - 1) text
        (replaced + 1, kept)
      else
        let (replaced, kept) := occurrences pattern 0 text
        (replaced, kept + 1)

variable {pattern text : List α}

theorem replaceFrom_length (new : List α) (skip : ℕ) :
    (replaceFrom pattern new skip text).length =
      (occurrences pattern skip text).1 * new.length + (occurrences pattern skip text).2 := by
  induction text generalizing skip with
  | nil => cases skip <;> simp [replaceFrom, occurrences]
  | cons a text ih =>
      cases skip with
      | succ skip => exact ih skip
      | zero =>
          unfold replaceFrom occurrences
          split
          · rw [List.length_append, ih]
            ring
          · rw [List.length_cons, ih]
            ring

theorem replace_of_absent (new : List α) (absent : ¬ pattern <:+: text) :
    replace pattern new text = text := by
  induction text with
  | nil => rfl
  | cons a text ih =>
      have notHere : pattern.isPrefixOf (a :: text) = false := by
        rw [Bool.eq_false_iff, ne_eq, List.isPrefixOf_iff_prefix]
        exact fun here => absent here.isInfix
      have later := ih fun occurs =>
        absent (occurs.trans (List.infix_cons_iff.mpr (.inr List.infix_rfl)))
      unfold replace replaceFrom
      rw [notHere]
      exact congrArg (a :: ·) later

theorem occurrences_pos (occurs : pattern <:+: text) (some : pattern ≠ []) :
    0 < (occurrences pattern 0 text).1 := by
  induction text with
  | nil => exact absurd (List.infix_nil.mp occurs) some
  | cons a text ih =>
      unfold occurrences
      split
      next => exact Nat.succ_pos _
      next notHere =>
        rcases List.infix_cons_iff.mp occurs with here | later
        · exact absurd (List.isPrefixOf_iff_prefix.mpr here) notHere
        · exact ih later

theorem replace_injective (some : pattern ≠ []) (occurs : pattern <:+: text) {new new' : List α}
    (same : replace pattern new text = replace pattern new' text) : new = new' := by
  have lengths : new.length = new'.length := by
    have total := congrArg List.length same
    unfold replace at total
    rw [replaceFrom_length, replaceFrom_length] at total
    have replaced := occurrences_pos occurs some
    exact Nat.eq_of_mul_eq_mul_left replaced (by omega)
  induction text with
  | nil => exact absurd (List.infix_nil.mp occurs) some
  | cons a text ih =>
      unfold replace replaceFrom at same
      split at same
      next => exact List.append_inj_left same lengths
      next notHere =>
        rcases List.infix_cons_iff.mp occurs with here | later
        · exact absurd (List.isPrefixOf_iff_prefix.mpr here) notHere
        · exact ih later (List.cons_injective same)

end SpotGridBot.Replace
