import SpotGridBot.Lib.Numerals
import SpotGridBot.Lib.Rounding
import SpotGridBot.Utils.Number

namespace SpotGridBot.Utils
open Rounding

/-- The regular expression of `parse<double>` matches the whole text. -/
def isDecimal (text : List Char) : Bool :=
  let (_, cs) := stripSign text
  let whole := cs.takeWhile Char.isDigit
  let rest := cs.dropWhile Char.isDigit
  !whole.isEmpty &&
    (rest.isEmpty || (rest.head? == some '.' && !rest.tail.isEmpty && rest.tail.all Char.isDigit))

def parseDouble (text : List Char) (defaultValue : ℚ) : ℚ :=
  if isDecimal text then (stod (String.ofList text)).getD defaultValue else defaultValue

/-- What `%.Nf` of `Poco::format` prints. -/
def printed (decimals : ℕ) (value : ℚ) : Numeral :=
  Numeral.fixed (value < 0) decimals (roundHalfEven (|value| * 10 ^ decimals)).toNat

def format (decimals : ℕ) (value : ℚ) : String := String.ofList (printed decimals value).text

def truncate (value : ℚ) : ℤ := if value < 0 then ⌈value⌉ else ⌊value⌋

theorem truncate_int (n : ℤ) : truncate n = n := by
  simp [truncate]

theorem llround_int (n : ℤ) : llround n = n := by
  have half : ⌊(1 / 2 : ℚ)⌋ = 0 := by norm_num
  have up : ∀ m : ℤ, ⌊(m : ℚ) + 1 / 2⌋ = m := by
    intro m
    rw [Int.floor_intCast_add, half, add_zero]
  unfold llround
  split
  · rw [← Int.cast_neg, up, neg_neg]
  · exact up n

theorem value_printed {decimals n : ℕ} {value : ℚ} (exact : |value| * 10 ^ decimals = n) :
    (printed decimals value).value = value := by
  have rounded : (roundHalfEven (|value| * 10 ^ decimals)).toNat = n := by
    rw [exact, ← Int.cast_natCast, roundHalfEven_int, Int.toNat_natCast]
  have magnitude : (n : ℚ) / 10 ^ decimals = |value| := by
    rw [← exact]
    exact mul_div_cancel_right₀ _ (by positivity)
  unfold printed
  rw [rounded, Numeral.value_fixed, magnitude]
  rcases lt_or_ge value 0 with below | above
  · rw [if_pos (decide_eq_true below), abs_of_neg below, neg_neg]
  · rw [if_neg (by simpa using above), abs_of_nonneg above]

theorem rounded_near (decimals : ℕ) {magnitude : ℚ} (nonneg : 0 ≤ magnitude) :
    |((roundHalfEven (magnitude * 10 ^ decimals)).toNat : ℚ) / 10 ^ decimals - magnitude| ≤
      1 / 2 / 10 ^ decimals := by
  have scale : (0 : ℚ) < 10 ^ decimals := by positivity
  have scaled : 0 ≤ magnitude * 10 ^ decimals := mul_nonneg nonneg scale.le
  have near := roundHalfEven_near (magnitude * 10 ^ decimals)
  have units : 0 ≤ roundHalfEven (magnitude * 10 ^ decimals) := by
    by_contra negative
    have one : (roundHalfEven (magnitude * 10 ^ decimals) : ℚ) ≤ -1 := by
      exact_mod_cast Int.le_sub_one_of_lt (not_le.mp negative)
    have close := (abs_le.mp near).1
    linarith
  have count : ((roundHalfEven (magnitude * 10 ^ decimals)).toNat : ℚ) =
      roundHalfEven (magnitude * 10 ^ decimals) := by
    exact_mod_cast Int.toNat_of_nonneg units
  have difference : (roundHalfEven (magnitude * 10 ^ decimals) : ℚ) / 10 ^ decimals - magnitude =
      (roundHalfEven (magnitude * 10 ^ decimals) - magnitude * 10 ^ decimals) / 10 ^ decimals := by
    rw [sub_div, mul_div_cancel_right₀ magnitude scale.ne']
  rw [count, difference, abs_div, abs_of_pos scale]
  exact div_le_div_of_nonneg_right near scale.le

theorem printed_near (decimals : ℕ) (value : ℚ) :
    |(printed decimals value).value - value| ≤ 1 / 2 / 10 ^ decimals := by
  have near := rounded_near decimals (abs_nonneg value)
  unfold printed
  rw [Numeral.value_fixed]
  rcases lt_or_ge value 0 with below | above
  · rw [if_pos (decide_eq_true below)]
    rw [abs_of_neg below] at near ⊢
    rwa [← abs_neg, neg_sub, sub_neg_eq_add, add_comm, ← sub_neg_eq_add]
  · rw [if_neg (by simpa using above)]
    rwa [abs_of_nonneg above] at near ⊢

theorem printed_exact_iff (decimals : ℕ) (value : ℚ) :
    (printed decimals value).value = value ↔ ∃ n : ℕ, |value| * 10 ^ decimals = n := by
  constructor
  · intro same
    refine ⟨(roundHalfEven (|value| * 10 ^ decimals)).toNat, ?_⟩
    have scale : (0 : ℚ) < 10 ^ decimals := by positivity
    have magnitude : |value| = (roundHalfEven (|value| * 10 ^ decimals)).toNat / 10 ^ decimals := by
      conv_lhs => rw [← same]
      unfold printed
      rw [Numeral.value_fixed]
      split
      · rw [abs_neg, abs_of_nonneg (by positivity)]
      · exact abs_of_nonneg (by positivity)
    rw [← div_mul_cancel₀ ((roundHalfEven (|value| * 10 ^ decimals)).toNat : ℚ) scale.ne',
      ← magnitude]
  · rintro ⟨n, exact⟩
    exact value_printed exact

namespace Numeral
variable (x : Numeral)

theorem takeWhile_digits {whole rest : List Char} (digits : ∀ c ∈ whole, c.isDigit = true)
    (stops : ∀ c ∈ rest.head?, c.isDigit = false) :
    (whole ++ rest).takeWhile Char.isDigit = whole ∧
      (whole ++ rest).dropWhile Char.isDigit = rest := by
  have none : rest.takeWhile Char.isDigit = [] ∧ rest.dropWhile Char.isDigit = rest := by
    cases rest with
    | nil => exact ⟨rfl, rfl⟩
    | cons c rest =>
        have other : c.isDigit = false := stops c rfl
        simp [other]
  constructor
  · rw [List.takeWhile_append_of_pos digits, none.1, List.append_nil]
  · rw [List.dropWhile_append_of_pos digits, none.2]

theorem split_digits : x.digits.takeWhile Char.isDigit = x.whole ∧
    x.digits.dropWhile Char.isDigit = if x.fraction = [] then [] else '.' :: x.fraction := by
  refine takeWhile_digits x.wholeDigits fun c member => ?_
  split at member
  · cases member
  · cases member
    rfl

theorem digits_cons : ∃ c cs, x.digits = c :: cs ∧ c.isDigit = true := by
  obtain ⟨c, whole, first⟩ := List.exists_cons_of_ne_nil x.nonempty
  refine ⟨c, whole ++ if x.fraction = [] then [] else '.' :: x.fraction, ?_, ?_⟩
  · rw [Numeral.digits, first, List.cons_append]
  · exact x.wholeDigits c (first ▸ List.mem_cons_self)

theorem digit_ne {c d : Char} (digit : c.isDigit = true) (other : d.isDigit = false) : c ≠ d := by
  rintro rfl
  rw [digit] at other
  cases other

theorem stripSign_text : stripSign x.text = (x.negative, x.digits) := by
  obtain ⟨c, cs, first, digit⟩ := digits_cons x
  unfold Numeral.text
  cases x.negative with
  | true => rfl
  | false =>
      have minus : c ≠ '-' := digit_ne digit (by decide)
      have plus : c ≠ '+' := digit_ne digit (by decide)
      rw [first]
      simp [stripSign, minus, plus]

theorem isDecimal_text : isDecimal x.text = true := by
  obtain ⟨whole, rest⟩ := split_digits x
  have nonempty := x.nonempty
  unfold isDecimal
  simp only [stripSign_text, whole, rest]
  by_cases fraction : x.fraction = []
  · simp [fraction, nonempty]
  · simpa [fraction, nonempty] using x.fractionDigits

theorem toUpper_digit {c : Char} (digit : c.isDigit = true) : c.toUpper = c := by
  have range := Char.isDigit_iff_toNat.mp digit
  have small : ¬ ('a'.val ≤ c.val ∧ c.val ≤ 'z'.val) := by
    rintro ⟨above, -⟩
    have letter : 'a'.toNat ≤ c.toNat := above
    have code : 'a'.toNat = 97 := rfl
    have nine : '9'.toNat = 57 := rfl
    omega
  delta Char.toUpper
  exact dif_neg small

theorem toLower_digit {c : Char} (digit : c.isDigit = true) : c.toLower = c := by
  have range := Char.isDigit_iff_toNat.mp digit
  have small : ¬ (c.val ≥ 'A'.val ∧ c.val ≤ 'Z'.val) := by
    rintro ⟨above, -⟩
    have letter : 'A'.toNat ≤ c.toNat := above
    have code : 'A'.toNat = 65 := rfl
    have nine : '9'.toNat = 57 := rfl
    omega
  delta Char.toLower
  exact dif_neg small

theorem digit_not_space {c : Char} (digit : c.isDigit = true) : isSpace c = false := by
  have range := Char.isDigit_iff_toNat.mp digit
  have low : '0'.toNat = 48 := rfl
  have blank : c ≠ ' ' := digit_ne digit (by decide)
  have above : ¬ c ≤ '\r' := by
    intro le
    have carriage : c.toNat ≤ '\r'.toNat := le
    have code : '\r'.toNat = 13 := rfl
    omega
  simp [isSpace, blank, above]

theorem dropWhile_text : x.text.dropWhile isSpace = x.text := by
  obtain ⟨c, cs, first, digit⟩ := digits_cons x
  unfold Numeral.text
  cases x.negative with
  | true => rfl
  | false =>
      rw [first]
      simp [digit_not_space digit]

theorem stod_text : stod (String.ofList x.text) = some x.value := by
  obtain ⟨whole, rest⟩ := split_digits x
  have nonempty := x.nonempty
  have digitsValue_eq : ∀ cs, digitsValue cs = Nat.ofDigitChars 10 cs 0 := fun cs =>
    Nat.ofDigitChars_eq_foldl.symm
  unfold stod Numeral.value Numeral.magnitude
  simp only [String.toList_ofList, dropWhile_text, stripSign_text, whole, rest, digitsValue_eq]
  by_cases fraction : x.fraction = []
  · simp [fraction, nonempty, exponent]
  · have none : ∀ c ∈ ([] : List Char).head?, c.isDigit = false := by simp
    have all := takeWhile_digits x.fractionDigits none
    rw [List.append_nil] at all
    simp [fraction, nonempty, all, exponent]

theorem parseDouble_text (defaultValue : ℚ) : parseDouble x.text defaultValue = x.value := by
  unfold parseDouble
  rw [isDecimal_text, stod_text]
  rfl

end Numeral

theorem parseDouble_toString (n : ℤ) (defaultValue : ℚ) :
    parseDouble (toString n).toList defaultValue = n := by
  rw [← Numeral.text_ofInt, Numeral.parseDouble_text, Numeral.value_ofInt]

end SpotGridBot.Utils
