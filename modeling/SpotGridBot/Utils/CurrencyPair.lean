import SpotGridBot.Utils.Number

/-!
# Currencies and currency pairs

`Currency::Value` is open: `RegisterCurrency` casts further integers into it. The two static maps
of `ValToStrMapping` and the precision map of `CpToStrMapping` are one `Registry`.
-/

namespace SpotGridBot.Utils

structure Currency where
  value : Nat
deriving DecidableEq, Repr

namespace Currency

def none : Currency := ⟨0⟩
def usd : Currency := ⟨1⟩
def eur : Currency := ⟨2⟩
def endOfFx : Currency := ⟨70⟩
def invalid : Currency := ⟨999999⟩

def Empty (c : Currency) : Prop := c = none
def Invalid (c : Currency) : Prop := c = invalid
def Valid (c : Currency) : Prop := ¬ c.Empty ∧ ¬ c.Invalid

instance (c : Currency) : Decidable c.Empty := inferInstanceAs (Decidable (c = none))
instance (c : Currency) : Decidable c.Invalid := inferInstanceAs (Decidable (c = invalid))
instance (c : Currency) : Decidable c.Valid :=
  inferInstanceAs (Decidable (¬ c.Empty ∧ ¬ c.Invalid))

end Currency

structure CurrencyPair where
  baseCCY : Currency
  quoteCCY : Currency
deriving DecidableEq, Repr

namespace CurrencyPair

def Empty (cp : CurrencyPair) : Prop := cp.baseCCY.Empty ∧ cp.quoteCCY.Empty
def Valid (cp : CurrencyPair) : Prop := cp.baseCCY.Valid ∧ cp.quoteCCY.Valid
def Invalid (cp : CurrencyPair) : Prop := ¬ cp.Empty ∧ ¬ cp.Valid
def IsFX (cp : CurrencyPair) : Prop := cp.baseCCY.value < Currency.endOfFx.value

instance (cp : CurrencyPair) : Decidable cp.Empty :=
  inferInstanceAs (Decidable (cp.baseCCY.Empty ∧ cp.quoteCCY.Empty))
instance (cp : CurrencyPair) : Decidable cp.Valid :=
  inferInstanceAs (Decidable (cp.baseCCY.Valid ∧ cp.quoteCCY.Valid))
instance (cp : CurrencyPair) : Decidable cp.Invalid :=
  inferInstanceAs (Decidable (¬ cp.Empty ∧ ¬ cp.Valid))
instance (cp : CurrencyPair) : Decidable cp.IsFX :=
  inferInstanceAs (Decidable (cp.baseCCY.value < Currency.endOfFx.value))

/-- `operator<`: a valid pair compares by quote currency with a pair of the same base. -/
def lt (a b : CurrencyPair) : Bool :=
  if a.Valid ∧ a.baseCCY = b.baseCCY then a.quoteCCY.value < b.quoteCCY.value
  else a.baseCCY.value < b.baseCCY.value

/-- Neither pair is below the other: one key, to a `std::map` that compares with `operator<`. -/
def equivalent (a b : CurrencyPair) : Bool := !a.lt b && !b.lt a

theorem equivalent_iff_eq {a b : CurrencyPair} (valid : a.Valid) (valid' : b.Valid) :
    a.equivalent b = true ↔ a = b := by
  obtain ⟨⟨base⟩, ⟨quote⟩⟩ := a
  obtain ⟨⟨base'⟩, ⟨quote'⟩⟩ := b
  simp only [equivalent, lt, valid, valid', true_and, Currency.mk.injEq, Bool.and_eq_true,
    Bool.not_eq_true', CurrencyPair.mk.injEq]
  constructor
  · rintro ⟨notBelow, notAbove⟩
    split_ifs at notBelow notAbove <;> simp only [decide_eq_false_iff_not] at notBelow notAbove <;>
      omega
  · rintro ⟨rfl, rfl⟩
    simp

end CurrencyPair

/-- `Currency::m_valToStrMapping` and `CurrencyPair::m_cpToStrMapping`. `strToVal` lists its map in
key order. -/
structure Registry where
  valToStr : Currency → Option String
  strToVal : List (String × Currency)
  cpToPrecision : CurrencyPair → Option (ℤ × ℤ)
  -- What the exact result of an operation on `double` is rounded to.
  nearest : ℚ → ℚ := id

def noCurrencies : Registry where
  valToStr _ := none
  strToVal := []
  cpToPrecision _ := none

namespace Registry
variable (reg : Registry)

def currency (sv : List Char) : Currency :=
  match reg.strToVal.lookup (String.ofList sv) with
  | some value => value
  | none => if sv.isEmpty then Currency.none else Currency.invalid

/-- `operator[]` of `m_valToStr`: a value that is not registered reads as the empty text. -/
def symbol (c : Currency) : String := (reg.valToStr c).getD ""

/-- `CurrencyPair::ToString` without the cache; `Names.toString` is the one with it. -/
def toString (cp : CurrencyPair) : String :=
  if cp.Empty then "" else reg.symbol cp.baseCCY ++ "/" ++ reg.symbol cp.quoteCCY

def find (pattern : List Char) : List Char → Option Nat
  | [] => if pattern.isEmpty then some 0 else none
  | c :: cs =>
      if pattern.isPrefixOf (c :: cs) then some 0 else (find pattern cs).map (· + 1)

def splitAt (sv : List Char) (p : Nat) : CurrencyPair :=
  ⟨reg.currency (sv.take p), reg.currency (sv.drop (p + 1))⟩

/-- The loop over the registered symbols at the end of `CurrencyPair::Parse`. -/
def parseConcatenation (sv : List Char) : List (String × Currency) → CurrencyPair
  | [] => ⟨Currency.invalid, Currency.invalid⟩
  | (symbol, value) :: rest =>
      if value = Currency.none then parseConcatenation sv rest
      else
        match find symbol.toList sv with
        | none => parseConcatenation sv rest
        | some p =>
            let left : CurrencyPair :=
              ⟨reg.currency symbol.toList, reg.currency (sv.drop symbol.length)⟩
            let right : CurrencyPair := ⟨reg.currency (sv.take p), reg.currency symbol.toList⟩
            if p = 0 then
              if left.Valid then left else parseConcatenation sv rest
            else if p = sv.length - symbol.length then
              if right.Valid then right else parseConcatenation sv rest
            else parseConcatenation sv rest

def parse (sv : List Char) : CurrencyPair :=
  let standard : CurrencyPair := ⟨reg.currency (sv.take 3), reg.currency (sv.drop 3)⟩
  if sv.isEmpty then ⟨Currency.none, Currency.none⟩
  else if sv.length = 6 ∧ standard.Valid then standard
  else
    match sv.findIdx? (· == '/') <|> sv.findIdx? (· == '-') with
    | some p => reg.splitAt sv p
    | none => reg.parseConcatenation sv reg.strToVal

/-- `ConnectionBase::GetCurrencyPair`; its hash only saves parsing a symbol again. -/
def getCurrencyPair (symbol : String) : CurrencyPair := reg.parse symbol.toList

def pipFactor (cp : CurrencyPair) : ℤ :=
  if cp.Valid then
    match reg.cpToPrecision cp with
    | some precision => precision.2
    | none => 10000
  else 1

def cpipFactor (cp : CurrencyPair) : ℤ := reg.pipFactor cp * 100

def dblToCpip (cp : CurrencyPair) (dbl : ℚ) : ℤ := llround (dbl * reg.cpipFactor cp)

def cpipToDbl (cp : CurrencyPair) (cpip : ℤ) : ℚ := cpip / reg.cpipFactor cp

/-- What `llround` makes of a result that no `int64_t` holds. -/
def fitInt64 (n : ℤ) : ℤ := if -2 ^ 63 ≤ n ∧ n < 2 ^ 63 then n else -2 ^ 63

/-- `DblToCpip` of the number a text stands for, in `double` as far as `llround`. -/
def scaledPrice (cp : CurrencyPair) (price : ℚ) : ℤ :=
  llround (reg.nearest (reg.nearest price * reg.nearest (reg.cpipFactor cp)))

def dblToCpip64 (cp : CurrencyPair) (price : ℚ) : ℤ := fitInt64 (reg.scaledPrice cp price)

end Registry

def quantityDecimalFactor : ℚ := 100
def quantityDecimalFactorCrypto : ℚ := 100000000

namespace Registry
variable (reg : Registry)

def scaledQty (cp : CurrencyPair) (qty : ℚ) : ℤ :=
  llround (reg.nearest (reg.nearest qty *
    if cp.IsFX then quantityDecimalFactor else quantityDecimalFactorCrypto))

def doubleToQty64 (cp : CurrencyPair) (qty : ℚ) : ℤ := fitInt64 (reg.scaledQty cp qty)

end Registry

def CurrencyPair.doubleToQty (cp : CurrencyPair) (qty : ℚ) : ℤ :=
  llround (qty * if cp.IsFX then quantityDecimalFactor else quantityDecimalFactorCrypto)

def CurrencyPair.qtyToDouble (cp : CurrencyPair) (qty : ℤ) : ℚ :=
  qty / if cp.IsFX then quantityDecimalFactor else quantityDecimalFactorCrypto

end SpotGridBot.Utils
