import SpotGridBot.Utils.Decimals

namespace SpotGridBot.Utils

abbrev Counted := ℤ × ℕ

/-- `while (… && ns % factor == 0)`, which makes at most `turns` turns. -/
def strip (factor : ℤ) : ℕ → Counted → Counted
  | 0, counted => counted
  | turns + 1, (ns, unit) =>
      if ns.tmod factor = 0 then strip factor turns (ns.tdiv factor, unit + 1) else (ns, unit)

def stripThousands (counted : Counted) : Counted := strip 1000 (3 - counted.2) counted

def stripSixties (counted : Counted) : Counted :=
  if 3 ≤ counted.2 then strip 60 (5 - counted.2) counted else counted

def stripHours (counted : Counted) : Counted :=
  if counted.2 = 5 ∧ counted.1.tmod 24 = 0 then (counted.1.tdiv 24, counted.2 + 1) else counted

def unitName : ℕ → String
  | 0 => "ns"
  | 1 => "us"
  | 2 => "ms"
  | 3 => "s"
  | 4 => "m"
  | 5 => "h"
  | 6 => "d"
  | _ => "?"

def nanosecondsToString (ns : ℤ) : String :=
  if ns = 0 then "0"
  else
    let (ns, unit) := stripHours (stripSixties (stripThousands (ns, 0)))
    toString ns ++ unitName unit

/-- The unit at the end of the text, which is given backwards. -/
def readUnit : List Char → List Char × ℤ
  | last :: before :: rest =>
      if last.toUpper = 'S' then
        if before.toUpper = 'N' then (rest, 1)
        else if before.toUpper = 'U' then (rest, 1000)
        else if before.toUpper = 'M' then (rest, 1000000)
        else (before :: rest, 1000000000)
      else if last.toUpper = 'M' then (before :: rest, 60000000000)
      else if last.toUpper = 'H' then (before :: rest, 3600000000000)
      else if last.toUpper = 'D' then (before :: rest, 86400000000000)
      else (last :: before :: rest, 1)
  | text => (text, 1)

def dropBlanks : List Char → List Char
  | ' ' :: c :: text => dropBlanks (c :: text)
  | text => text

def stringToNanoseconds (str : String) : ℤ :=
  let (text, factor) := readUnit str.toList.reverse
  truncate (parseDouble (dropBlanks text).reverse 0 * factor)

example : nanosecondsToString (-5400000000000) = "-90m" ∧ stringToNanoseconds "1.5 h" =
    5400000000000 := by decide +kernel

def unitFactor : ℕ → ℤ
  | 0 => 1
  | 1 => 1000
  | 2 => 1000000
  | 3 => 1000000000
  | 4 => 60000000000
  | 5 => 3600000000000
  | _ => 86400000000000

def Counted.nanoseconds (counted : Counted) : ℤ := counted.1 * unitFactor counted.2

theorem nanoseconds_tdiv {factor ns : ℤ} {unit : ℕ} (divides : ns.tmod factor = 0)
    (next : unitFactor (unit + 1) = factor * unitFactor unit) :
    Counted.nanoseconds (ns.tdiv factor, unit + 1) = Counted.nanoseconds (ns, unit) := by
  calc ns.tdiv factor * unitFactor (unit + 1)
      = ns.tdiv factor * factor * unitFactor unit := by rw [next, mul_assoc]
    _ = ns * unitFactor unit := by rw [Int.tdiv_mul_cancel (Int.dvd_of_tmod_eq_zero divides)]

theorem strip_nanoseconds (factor : ℤ) (turns : ℕ) (counted : Counted)
    (next : ∀ unit, counted.2 ≤ unit → unit < counted.2 + turns →
      unitFactor (unit + 1) = factor * unitFactor unit) :
    (strip factor turns counted).nanoseconds = counted.nanoseconds ∧
      (strip factor turns counted).2 ≤ counted.2 + turns := by
  induction turns generalizing counted with
  | zero => exact ⟨rfl, le_rfl⟩
  | succ turns ih =>
      obtain ⟨ns, unit⟩ := counted
      unfold strip
      split_ifs with divides
      · obtain ⟨same, bound⟩ := ih (ns.tdiv factor, unit + 1) fun unit' above below =>
          next unit' (by omega) (by omega)
        have first := nanoseconds_tdiv divides (next unit le_rfl (by omega))
        exact ⟨same.trans first, by omega⟩
      · exact ⟨rfl, by omega⟩

theorem stripThousands_nanoseconds {counted : Counted} (known : counted.2 ≤ 3) :
    (stripThousands counted).nanoseconds = counted.nanoseconds ∧
      (stripThousands counted).2 ≤ 3 := by
  have next : ∀ unit < 3, unitFactor (unit + 1) = 1000 * unitFactor unit := by decide
  obtain ⟨same, bound⟩ := strip_nanoseconds 1000 (3 - counted.2) counted fun unit _ below =>
    next unit (by omega)
  exact ⟨same, by unfold stripThousands; omega⟩

theorem stripSixties_nanoseconds {counted : Counted} (known : counted.2 ≤ 3) :
    (stripSixties counted).nanoseconds = counted.nanoseconds ∧ (stripSixties counted).2 ≤ 5 := by
  unfold stripSixties
  split_ifs with seconds
  · have next : ∀ unit < 5, 3 ≤ unit → unitFactor (unit + 1) = 60 * unitFactor unit := by decide
    obtain ⟨same, bound⟩ := strip_nanoseconds 60 (5 - counted.2) counted fun unit above below =>
      next unit (by omega) (by omega)
    exact ⟨same, by omega⟩
  · exact ⟨rfl, by omega⟩

theorem stripHours_nanoseconds {counted : Counted} (known : counted.2 ≤ 5) :
    (stripHours counted).nanoseconds = counted.nanoseconds ∧ (stripHours counted).2 ≤ 6 := by
  obtain ⟨ns, unit⟩ := counted
  unfold stripHours
  split_ifs with hours
  · obtain rfl : unit = 5 := hours.1
    exact ⟨nanoseconds_tdiv hours.2 rfl, le_rfl⟩
  · exact ⟨rfl, by omega⟩

theorem dropBlanks_digit {c : Char} (digit : c.isDigit = true) (text : List Char) :
    dropBlanks (c :: text) = c :: text := by
  have notBlank : c ≠ ' ' := Numeral.digit_ne digit (by decide)
  unfold dropBlanks
  split
  next same =>
    exact absurd (List.cons.inj same).1 notBlank
  next => rfl

theorem readUnit_unitName {last : Char} (digit : last.isDigit = true) (text : List Char) {unit : ℕ}
    (known : unit ≤ 6) :
    readUnit ((unitName unit).toList.reverse ++ last :: text) =
      (last :: text, unitFactor unit) := by
  have upper := Numeral.toUpper_digit digit
  have other : ∀ d : Char, d.isDigit = false → last ≠ d := fun d => Numeral.digit_ne digit
  have n := other 'N' (by decide)
  have u := other 'U' (by decide)
  have m := other 'M' (by decide)
  have cases : unit = 0 ∨ unit = 1 ∨ unit = 2 ∨ unit = 3 ∨ unit = 4 ∨ unit = 5 ∨ unit = 6 := by
    omega
  rcases cases with rfl | rfl | rfl | rfl | rfl | rfl | rfl <;>
    simp [readUnit, unitName, unitFactor, upper, n, u, m]

theorem stringToNanoseconds_unit (n : ℤ) {unit : ℕ} (known : unit ≤ 6) :
    stringToNanoseconds (toString n ++ unitName unit) = n * unitFactor unit := by
  obtain ⟨last, text, backwards, digit⟩ := (Numeral.ofInt n).text_ends
  rw [Numeral.text_ofInt] at backwards
  unfold stringToNanoseconds
  rw [String.toList_append, List.reverse_append, backwards, readUnit_unitName digit text known]
  dsimp only
  rw [dropBlanks_digit digit, ← backwards, List.reverse_reverse, parseDouble_toString,
    ← Int.cast_mul, truncate_int]

theorem stringToNanoseconds_nanosecondsToString (ns : ℤ) :
    stringToNanoseconds (nanosecondsToString ns) = ns := by
  unfold nanosecondsToString
  split_ifs with zero
  · rw [zero]
    decide +kernel
  · have start : ((ns, 0) : Counted).2 ≤ 3 := Nat.zero_le 3
    obtain ⟨thousands, seconds⟩ := stripThousands_nanoseconds start
    obtain ⟨sixties, hours⟩ := stripSixties_nanoseconds seconds
    obtain ⟨days, known⟩ := stripHours_nanoseconds hours
    calc stringToNanoseconds _
        = (stripHours (stripSixties (stripThousands (ns, 0)))).nanoseconds :=
          stringToNanoseconds_unit _ known
      _ = Counted.nanoseconds (ns, 0) := (days.trans sixties).trans thousands
      _ = ns := mul_one ns

end SpotGridBot.Utils
