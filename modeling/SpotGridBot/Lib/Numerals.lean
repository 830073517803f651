import Mathlib.Data.Nat.Digits.Lemmas
import Mathlib.Data.Rat.Defs
import Mathlib.Data.Rat.Cast.Defs
import Mathlib.Algebra.Order.Field.Rat
import Mathlib.Tactic.Ring
import Mathlib.Tactic.FieldSimp

namespace SpotGridBot

structure Numeral where
  negative : Bool
  whole : List Char
  fraction : List Char
  wholeDigits : ∀ c ∈ whole, c.isDigit = true
  fractionDigits : ∀ c ∈ fraction, c.isDigit = true
  nonempty : whole ≠ []

namespace Numeral

def digits (x : Numeral) : List Char :=
  x.whole ++ if x.fraction = [] then [] else '.' :: x.fraction

def text (x : Numeral) : List Char := if x.negative then '-' :: x.digits else x.digits

def magnitude (x : Numeral) : ℚ :=
  (Nat.ofDigitChars 10 (x.whole ++ x.fraction) 0 : ℕ) / 10 ^ x.fraction.length

def value (x : Numeral) : ℚ := if x.negative then -x.magnitude else x.magnitude

theorem isDigit_toDigits {n : ℕ} : ∀ c ∈ Nat.toDigits 10 n, c.isDigit = true :=
  fun _ member => Nat.isDigit_of_mem_toDigits (by decide) (by decide) member

theorem text_ends (x : Numeral) : ∃ last text,
    x.text.reverse = last :: text ∧ last.isDigit = true := by
  obtain ⟨last, cs, ends, digit⟩ : ∃ last cs,
      x.digits.reverse = last :: cs ∧ last.isDigit = true := by
    by_cases fraction : x.fraction = []
    · obtain ⟨last, cs, ends⟩ := List.exists_cons_of_ne_nil (List.reverse_ne_nil_iff.mpr x.nonempty)
      refine ⟨last, cs, by simp [digits, fraction, ends], x.wholeDigits last ?_⟩
      exact List.mem_reverse.mp (ends ▸ List.mem_cons_self)
    · obtain ⟨last, cs, ends⟩ := List.exists_cons_of_ne_nil (List.reverse_ne_nil_iff.mpr fraction)
      refine ⟨last, cs ++ '.' :: x.whole.reverse, by simp [digits, fraction, ends],
        x.fractionDigits last ?_⟩
      exact List.mem_reverse.mp (ends ▸ List.mem_cons_self)
  unfold text
  split
  · exact ⟨last, cs ++ ['-'], by simp [ends], digit⟩
  · exact ⟨last, cs, ends, digit⟩

def ofInt (n : ℤ) : Numeral where
  negative := n < 0
  whole := Nat.toDigits 10 n.natAbs
  fraction := []
  wholeDigits := isDigit_toDigits
  fractionDigits := fun _ member => absurd member List.not_mem_nil
  nonempty := Nat.toDigits_ne_nil

theorem text_ofInt (n : ℤ) : (ofInt n).text = (toString n).toList := by
  cases n with
  | ofNat n =>
      have printed : (toString (Int.ofNat n)).toList = Nat.toDigits 10 n := String.toList_ofList
      rw [printed]
      simp [text, digits, ofInt]
  | negSucc n =>
      have printed : (toString (Int.negSucc n)).toList = '-' :: Nat.toDigits 10 (n + 1) := by
        rw [← Nat.toList_repr]
        exact String.toList_append
      rw [printed]
      simp [text, digits, ofInt]

theorem value_ofInt (n : ℤ) : (ofInt n).value = n := by
  have magnitude : (ofInt n).magnitude = n.natAbs := by
    simp [magnitude, ofInt, Nat.ofDigitChars_ten_toDigits]
  unfold value
  rw [magnitude]
  rcases lt_or_ge n 0 with below | above
  · have sign : (ofInt n).negative = true := decide_eq_true below
    rw [if_pos sign, Nat.cast_natAbs, abs_of_neg below]
    simp
  · have sign : ¬ (ofInt n).negative = true := by simpa [ofInt] using above
    rw [if_neg sign, Nat.cast_natAbs, abs_of_nonneg above]

def padded : ℕ → ℕ → List Char
  | 0, _ => []
  | decimals + 1, n => padded decimals (n / 10) ++ [Nat.digitChar (n % 10)]

@[simp] theorem length_padded (decimals n : ℕ) : (padded decimals n).length = decimals := by
  induction decimals generalizing n with
  | zero => rfl
  | succ decimals ih => simp [padded, ih]

theorem isDigit_padded (decimals n : ℕ) : ∀ c ∈ padded decimals n, c.isDigit = true := by
  induction decimals generalizing n with
  | zero => exact fun _ member => absurd member List.not_mem_nil
  | succ decimals ih =>
      intro c member
      rcases List.mem_append.mp member with earlier | last
      · exact ih (n / 10) c earlier
      · have below : n % 10 < 10 := Nat.mod_lt n (by decide)
        have written : c ∈ Nat.toDigits 10 (n % 10) := Nat.toDigits_of_lt_base below ▸ last
        exact isDigit_toDigits c written

theorem ofDigitChars_padded (decimals n k : ℕ) :
    Nat.ofDigitChars 10 (padded decimals n) k = 10 ^ decimals * k + n % 10 ^ decimals := by
  induction decimals generalizing n with
  | zero => simp [padded, Nat.mod_one]
  | succ decimals ih =>
      have last : n % 10 < 10 := Nat.mod_lt n (by decide)
      rw [padded, Nat.ofDigitChars_append, ih,
        Nat.ofDigitChars_cons_digitChar_of_lt_ten last, Nat.ofDigitChars_nil,
        pow_succ', Nat.mod_mul]
      ring

def fixed (negative : Bool) (decimals n : ℕ) : Numeral where
  negative := negative
  whole := Nat.toDigits 10 (n / 10 ^ decimals)
  fraction := padded decimals n
  wholeDigits := isDigit_toDigits
  fractionDigits := isDigit_padded decimals n
  nonempty := Nat.toDigits_ne_nil

theorem magnitude_fixed (negative : Bool) (decimals n : ℕ) :
    (fixed negative decimals n).magnitude = n / 10 ^ decimals := by
  have whole : Nat.ofDigitChars 10 ((fixed negative decimals n).whole ++
      (fixed negative decimals n).fraction) 0 = n := by
    simp only [fixed, Nat.ofDigitChars_append, Nat.ofDigitChars_ten_toDigits, ofDigitChars_padded]
    exact Nat.div_add_mod n (10 ^ decimals)
  unfold magnitude
  rw [whole]
  simp [fixed]

theorem value_fixed (negative : Bool) (decimals n : ℕ) :
    (fixed negative decimals n).value =
      if negative then -((n : ℚ) / 10 ^ decimals) else n / 10 ^ decimals := by
  unfold value
  rw [magnitude_fixed]
  rfl

end Numeral

end SpotGridBot
