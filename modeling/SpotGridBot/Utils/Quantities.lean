import SpotGridBot.Utils.Decimals
import SpotGridBot.Utils.CurrencyPair

namespace SpotGridBot.Utils
open Rounding

def qtyToString (cp : CurrencyPair) (qty : ℤ) : String :=
  if qty = 0 then "0"
  else if ¬ cp.IsFX then format 4 (cp.qtyToDouble qty)
  else if qty.tmod 100000 = 0 then
    let qty := qty.tdiv 100000
    if qty.tmod 1000000 = 0 then toString (qty.tdiv 1000000) ++ "b"
    else if qty.tmod 1000 = 0 then toString (qty.tdiv 1000) ++ "m"
    else toString qty ++ "k"
  else if qty.tmod 100 = 0 then toString (qty.tdiv 100)
  else format 2 (cp.qtyToDouble qty)

def scaled (str : String) : ℚ :=
  match str.toList.reverse with
  | [] => 0
  | last :: text =>
      if last.toLower = 'b' then parseDouble text.reverse 0 * 1000000000
      else if last.toLower = 'm' then parseDouble text.reverse 0 * 1000000
      else if last.toLower = 'k' then parseDouble text.reverse 0 * 1000
      else parseDouble str.toList 0

def stringToQty (cp : CurrencyPair) (str : String) : ℤ := cp.doubleToQty (scaled str)

theorem scaled_text (x : Numeral) : scaled (String.ofList x.text) = x.value := by
  obtain ⟨last, text, backwards, digit⟩ := x.text_ends
  have other : ∀ d : Char, d.isDigit = false → last ≠ d := fun d => Numeral.digit_ne digit
  unfold scaled
  rw [String.toList_ofList, backwards]
  simp only [Numeral.toLower_digit digit, other 'b' (by decide), other 'm' (by decide),
    other 'k' (by decide), if_false]
  exact Numeral.parseDouble_text x 0

theorem scaled_toString (n : ℤ) : scaled (toString n) = n := by
  rw [← String.ofList_toList (s := toString n), ← Numeral.text_ofInt, scaled_text,
    Numeral.value_ofInt]

theorem scaled_suffix (n : ℤ) : scaled (toString n ++ "b") = n * 1000000000 ∧
    scaled (toString n ++ "m") = n * 1000000 ∧ scaled (toString n ++ "k") = n * 1000 := by
  have read := parseDouble_toString n 0
  refine ⟨?_, ?_, ?_⟩ <;> simpa [scaled, String.toList_append] using read

theorem stringToQty_format (cp : CurrencyPair) (decimals : ℕ) (value : ℚ) :
    stringToQty cp (format decimals value) = cp.doubleToQty (printed decimals value).value :=
  congrArg cp.doubleToQty (scaled_text _)

section FX
variable {cp : CurrencyPair} (fx : cp.IsFX)
include fx

theorem stringToQty_of_hundredths {str : String} {qty : ℤ} (read : scaled str * 100 = qty) :
    stringToQty cp str = qty := by
  unfold stringToQty CurrencyPair.doubleToQty
  rw [if_pos fx, quantityDecimalFactor, read, llround_int]

theorem stringToQty_qtyToString_fx (qty : ℤ) : stringToQty cp (qtyToString cp qty) = qty := by
  have stripped : ∀ {q : ℤ} (factor : ℕ), q.tmod factor = 0 →
      ((q.tdiv factor : ℤ) : ℚ) * factor = q := by
    intro q factor divides
    exact_mod_cast Int.tdiv_mul_cancel (Int.dvd_of_tmod_eq_zero divides)
  unfold qtyToString
  simp only [fx, not_true_eq_false, if_false]
  split_ifs with zero large billion million whole
  · rw [zero]
    exact stringToQty_of_hundredths fx (by decide +kernel)
  · have units := stripped 100000 large
    have more := stripped 1000000 billion
    refine stringToQty_of_hundredths fx ?_
    rw [(scaled_suffix _).1]
    push_cast at units more
    linarith
  · have units := stripped 100000 large
    have more := stripped 1000 million
    refine stringToQty_of_hundredths fx ?_
    rw [(scaled_suffix _).2.1]
    push_cast at units more
    linarith
  · have units := stripped 100000 large
    refine stringToQty_of_hundredths fx ?_
    rw [(scaled_suffix _).2.2]
    push_cast at units
    linarith
  · have units := stripped 100 whole
    refine stringToQty_of_hundredths fx ?_
    rw [scaled_toString]
    push_cast at units
    linarith
  · have exact : |cp.qtyToDouble qty| * 10 ^ 2 = (qty.natAbs : ℚ) := by
      unfold CurrencyPair.qtyToDouble quantityDecimalFactor
      rw [if_pos fx, abs_div, Nat.cast_natAbs, Int.cast_abs]
      norm_num
    refine stringToQty_of_hundredths fx ?_
    rw [format, scaled_text, value_printed exact]
    unfold CurrencyPair.qtyToDouble quantityDecimalFactor
    rw [if_pos fx]
    ring

end FX

section Crypto
variable {cp : CurrencyPair} (crypto : ¬ cp.IsFX)
include crypto

theorem stringToQty_printed (qty : ℤ) (nonzero : qty ≠ 0) :
    stringToQty cp (qtyToString cp qty) =
      cp.doubleToQty (printed 4 (cp.qtyToDouble qty)).value := by
  unfold qtyToString
  rw [if_neg nonzero, if_pos crypto, stringToQty_format]

theorem dvd_doubleToQty_printed (value : ℚ) :
    10000 ∣ cp.doubleToQty (printed 4 value).value := by
  set n := (roundHalfEven (|value| * 10 ^ 4)).toNat with rounded
  obtain ⟨m, read⟩ : ∃ m : ℤ, (printed 4 value).value = m / 10 ^ 4 := by
    unfold printed
    rw [Numeral.value_fixed, ← rounded]
    split
    · exact ⟨-n, by push_cast; ring⟩
    · exact ⟨n, by push_cast; ring⟩
  refine ⟨m, ?_⟩
  unfold CurrencyPair.doubleToQty quantityDecimalFactorCrypto
  have units : (m : ℚ) / 10 ^ 4 * 100000000 = ((10000 * m : ℤ) : ℚ) := by
    push_cast
    ring
  rw [if_neg crypto, read, units, llround_int]

theorem doubleToQty_printed_of_dvd {qty : ℤ} (divides : 10000 ∣ qty) :
    cp.doubleToQty (printed 4 (cp.qtyToDouble qty)).value = qty := by
  obtain ⟨m, rfl⟩ := divides
  unfold CurrencyPair.doubleToQty CurrencyPair.qtyToDouble quantityDecimalFactorCrypto
  rw [if_neg crypto]
  have decimals : ((10000 * m : ℤ) : ℚ) / 100000000 = m / 10000 := by
    push_cast
    ring
  have exact : |(m : ℚ) / 10000| * 10 ^ 4 = (m.natAbs : ℚ) := by
    rw [abs_div, Nat.cast_natAbs, Int.cast_abs]
    norm_num
  have units : (m : ℚ) / 10000 * 100000000 = ((10000 * m : ℤ) : ℚ) := by
    push_cast
    ring
  rw [decimals, value_printed exact, units, llround_int]

end Crypto

/-- The text keeps a quantity of an FX pair, and of another pair one that has at most four
decimals. -/
theorem stringToQty_qtyToString_iff (cp : CurrencyPair) (qty : ℤ) :
    stringToQty cp (qtyToString cp qty) = qty ↔ cp.IsFX ∨ 10000 ∣ qty := by
  by_cases fx : cp.IsFX
  · exact iff_of_true (stringToQty_qtyToString_fx fx qty) (.inl fx)
  · rcases eq_or_ne qty 0 with rfl | nonzero
    · refine iff_of_true ?_ (.inr (dvd_zero _))
      unfold qtyToString stringToQty CurrencyPair.doubleToQty
      have zero : scaled "0" = 0 := by decide +kernel
      rw [if_pos rfl, zero, zero_mul]
      exact llround_int 0
    · rw [stringToQty_printed fx qty nonzero, or_iff_right fx]
      constructor
      · intro same
        exact same ▸ dvd_doubleToQty_printed fx _
      · exact doubleToQty_printed_of_dvd fx

theorem smallest_quantity_lost :
    ¬ ∀ cp : CurrencyPair, cp.Valid → ∀ qty : ℤ, -2 ^ 63 ≤ qty → qty < 2 ^ 63 →
      stringToQty cp (qtyToString cp qty) = qty := by
  intro all
  have smallest := all ⟨⟨100⟩, Currency.usd⟩ (by decide) 1 (by decide) (by decide)
  exact absurd smallest (by decide +kernel)

end SpotGridBot.Utils
