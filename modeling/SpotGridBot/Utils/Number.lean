import Mathlib.Data.Rat.Floor
import Mathlib.Algebra.Order.Floor.Ring
import Mathlib.Tactic.Linarith
import Mathlib.Tactic.NormNum

/-!
# Numbers and texts

A `double` is read as the exact rational it stands for; an `int64_t` is an integer.
-/

namespace SpotGridBot.Utils

/-- `UTILS::Round`, with its default multiplier. -/
def round (value : ℚ) (multi : ℚ := 10000) : ℚ :=
  let rounded := (⌊|value| * multi + 1 / 2⌋ : ℚ) / multi
  if value < 0 then -rounded else rounded

def llround (value : ℚ) : ℤ :=
  if value < 0 then -⌊-value + 1 / 2⌋ else ⌊value + 1 / 2⌋

def isSpace (c : Char) : Bool := c == ' ' || ('\t' ≤ c && c ≤ '\r')

def toupper (s : String) : String := String.ofList (s.toList.map Char.toUpper)

def digitsValue (digits : List Char) : ℕ :=
  digits.foldl (fun n c => 10 * n + (c.toNat - '0'.toNat)) 0

def stripSign : List Char → Bool × List Char
  | '-' :: cs => (true, cs)
  | '+' :: cs => (false, cs)
  | cs => (false, cs)

def exponent : List Char → ℤ
  | c :: cs =>
      if c = 'e' ∨ c = 'E' then
        let (negative, cs) := stripSign cs
        let value : ℤ := digitsValue (cs.takeWhile Char.isDigit)
        if negative then -value else value
      else 0
  | [] => 0

/-- `std::stod` on decimal numerals: leading blanks are skipped, the longest numeral is read, what
follows it is ignored, and `none` is the `std::invalid_argument` of a text that starts with none. -/
def stod (text : String) : Option ℚ :=
  let (negative, cs) := stripSign (text.toList.dropWhile isSpace)
  let whole := cs.takeWhile Char.isDigit
  let rest := cs.dropWhile Char.isDigit
  let point := rest.head? = some '.'
  let fraction := if point then rest.tail.takeWhile Char.isDigit else []
  let tail := if point then rest.tail.dropWhile Char.isDigit else rest
  if whole.isEmpty ∧ fraction.isEmpty then none
  else
    let mantissa : ℚ := digitsValue (whole ++ fraction) / 10 ^ fraction.length
    let value := mantissa * (10 : ℚ) ^ exponent tail
    some (if negative then -value else value)

/-- The texts that `std::stod` reads this way: none of a hexadecimal number, of `inf` or `nan`, and
none of a number that a `double` is too small or too coarse for. -/
def PlainNumeral (text : String) : Prop :=
  (∀ c ∈ text.toList, c ∉ ['x', 'X', 'i', 'I', 'n', 'N']) ∧
    ∀ value ∈ stod text, value = 0 ∨ 1 / (2 ^ 1022 : ℕ) ≤ |value| ∧ |value| ≤ (2 ^ 1023 : ℕ)

instance (text : String) : Decidable (PlainNumeral text) :=
  have := List.decidableBAll (fun c => c ∉ ['x', 'X', 'i', 'I', 'n', 'N']) text.toList
  inferInstanceAs (Decidable (_ ∧ _))

example : stod " 21954.52" = some (2195452 / 100) := by decide +kernel
example : stod "0.0000" = some 0 ∧ stod "-2.5e2x" = some (-250) ∧ stod "bid" = none := by
  decide +kernel

@[simp] theorem round_zero : round 0 = 0 := by
  have below : (2 : ℚ)⁻¹ < 1 := by norm_num
  simp [round, below]

theorem round_eq_zero_iff (value : ℚ) : round value = 0 ↔ |value| < 1 / 20000 := by
  have none : round value = 0 ↔ ⌊|value| * 10000 + 1 / 2⌋ = 0 := by
    unfold round
    split <;> simp
  rw [none, Int.floor_eq_zero_iff, Set.mem_Ico]
  have nonneg := abs_nonneg value
  constructor
  · rintro ⟨-, small⟩
    linarith
  · intro small
    constructor <;> linarith

end SpotGridBot.Utils
