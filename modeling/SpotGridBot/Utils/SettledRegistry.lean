import SpotGridBot.Utils.CurrencyTable
import SpotGridBot.Utils.NameCache
import SpotGridBot.Utils.OpenQuantity

namespace SpotGridBot.Utils

namespace Registry
variable (reg : Registry)

def PlainSymbols : Prop := ∀ symbol value, reg.strToVal.lookup symbol = some value → Plain symbol

def HasOtherLength : Prop :=
  ∃ symbol value, reg.strToVal.lookup symbol = some value ∧ value.Valid ∧ symbol.toList.length ≠ 3

structure Settled : Prop where
  bijective : reg.Bijective
  checked : reg.checkRegisteredCurrencies = true
  empty : reg.valToStr .none = some ""
  dollar : reg.valToStr .usd = some "USD"
  invalid : reg.valToStr .invalid = some invalidCurrency
  pips : reg.PipsPositive

variable {reg}

def cut (sv : List Char) : Option ℕ := sv.findIdx? (· == '/') <|> sv.findIdx? (· == '-')

theorem cut_isSome {sv : List Char} (inside : '/' ∈ sv ∨ '-' ∈ sv) : ∃ p, cut sv = some p := by
  unfold cut
  cases slash : sv.findIdx? (· == '/') with
  | some p => exact ⟨p, rfl⟩
  | none =>
      have missing : '/' ∉ sv := by
        intro member
        simpa using List.findIdx?_eq_none_iff.mp slash _ member
      have dash := inside.resolve_left missing
      have there : (sv.findIdx? (· == '-')).isSome := by
        rw [List.findIdx?_isSome, List.any_eq_true]
        exact ⟨'-', dash, rfl⟩
      exact Option.isSome_iff_exists.mp there

theorem cut_lt {sv : List Char} {p : ℕ} (found : cut sv = some p) : p < sv.length := by
  unfold cut at found
  cases slash : sv.findIdx? (· == '/') with
  | some q =>
      rw [slash] at found
      obtain rfl := Option.some.inj found
      exact (List.findIdx?_eq_some_iff_getElem.mp slash).1
  | none =>
      rw [slash] at found
      exact (List.findIdx?_eq_some_iff_getElem.mp found).1

theorem cut_append {sv : List Char} {p : ℕ} (found : sv.findIdx? (· == '/') = some p)
    (rest : List Char) : cut (sv ++ rest) = some p := by
  rw [cut, List.findIdx?_append, found]
  rfl

theorem parse_cut {sv : List Char} {p : ℕ} (found : cut sv = some p) :
    (sv.length = 6 ∧ reg.parse sv = ⟨reg.currency (sv.take 3), reg.currency (sv.drop 3)⟩) ∨
      reg.parse sv = ⟨reg.currency (sv.take p), reg.currency (sv.drop (p + 1))⟩ := by
  have nonempty : ¬ sv.isEmpty = true := by
    rw [List.isEmpty_iff]
    rintro rfl
    exact absurd (cut_lt found) (Nat.not_lt_zero p)
  unfold cut at found
  unfold parse
  dsimp only
  rw [if_neg nonempty, found]
  split
  next standard => exact .inl ⟨standard.1, rfl⟩
  next => exact .inr rfl

theorem Consistent.length_take (consistent : reg.Consistent) {sv : List Char} {n : ℕ}
    {symbol : String} {value : Currency} (found : reg.strToVal.lookup symbol = some value)
    (valid : value.Valid) (read : reg.currency (sv.take n) = value) (inside : n ≤ sv.length) :
    n = symbol.toList.length := by
  have same := consistent.text_of_currency found valid read
  rw [← same, List.length_take, Nat.min_eq_left inside]

theorem Consistent.three_of_delimited (consistent : reg.Consistent) {base quote : String}
    {value value' : Currency} (found : reg.strToVal.lookup base = some value)
    (found' : reg.strToVal.lookup quote = some value') (valid : value.Valid) (valid' : value'.Valid)
    (distinct : value ≠ value') (delimited : ¬ Plain base) :
    base.toList.length = 3 ∧ quote.toList.length = 3 := by
  have inside : '/' ∈ base.toList ++ quote.toList ∨ '-' ∈ base.toList ++ quote.toList := by
    rw [List.mem_append, List.mem_append]
    unfold Plain at delimited
    tauto
  obtain ⟨p, here⟩ := cut_isSome inside
  have bound := cut_lt here
  have together :=
    concatenation_of_checked consistent.checked found found' valid valid' distinct
  have total : (base.toList ++ quote.toList).length =
      base.toList.length + quote.toList.length := List.length_append
  rcases reg.parse_cut here with ⟨six, read⟩ | read
  · rw [together] at read
    have first := consistent.length_take found valid (congrArg CurrencyPair.baseCCY read).symm
      (by omega)
    omega
  · rw [together] at read
    have first := consistent.length_take found valid (congrArg CurrencyPair.baseCCY read).symm
      (le_of_lt bound)
    have rest := congrArg List.length (consistent.text_of_currency found' valid'
      (congrArg CurrencyPair.quoteCCY read).symm)
    rw [List.length_drop] at rest
    omega

theorem Settled.consistent (settled : reg.Settled) : reg.Consistent :=
  ⟨fun symbol value => (settled.bijective symbol value).mp, settled.checked⟩

theorem Settled.valid_of_delimited (settled : reg.Settled) {symbol : String} {value : Currency}
    (found : reg.strToVal.lookup symbol = some value) (delimited : ¬ Plain symbol) :
    value.Valid ∧ value ≠ .usd := by
  have text := (settled.bijective symbol value).mp found
  have other {c : Currency} {plain : String} (known : reg.valToStr c = some plain)
      (clean : Plain plain) : value ≠ c := by
    rintro rfl
    rw [known] at text
    exact delimited (Option.some.inj text ▸ clean)
  exact ⟨⟨other settled.empty (by decide), other settled.invalid (by decide)⟩,
    other settled.dollar (by decide)⟩

theorem Settled.dollar_found (settled : reg.Settled) :
    reg.strToVal.lookup "USD" = some .usd :=
  (settled.bijective "USD" .usd).mpr settled.dollar

theorem Settled.three_of_delimited (settled : reg.Settled) {symbol : String} {value : Currency}
    (found : reg.strToVal.lookup symbol = some value) (delimited : ¬ Plain symbol) :
    symbol.toList.length = 3 := by
  obtain ⟨valid, other⟩ := settled.valid_of_delimited found delimited
  exact (settled.consistent.three_of_delimited found settled.dollar_found valid (by decide) other
    delimited).1

theorem Settled.plain_of_otherLength (settled : reg.Settled) (longer : reg.HasOtherLength) :
    reg.PlainSymbols := by
  obtain ⟨symbol, value, found, valid, length⟩ := longer
  intro symbol' value' found'
  by_contra delimited
  have valid' := (settled.valid_of_delimited found' delimited).1
  by_cases same : value' = value
  · subst same
    have texts := ((settled.bijective _ _).mp found).symm.trans ((settled.bijective _ _).mp found')
    obtain rfl := Option.some.inj texts
    exact length (settled.three_of_delimited found' delimited)
  · exact length
      (settled.consistent.three_of_delimited found' found valid' valid same delimited).2

theorem Settled.misread (settled : reg.Settled) {symbol : String} {value value' : Currency}
    (found : reg.strToVal.lookup symbol = some value) (delimited : ¬ Plain symbol)
    {rest : List Char} {p : ℕ} (here : cut (symbol.toList ++ rest) = some p)
    (early : p < symbol.toList.length) (long : (symbol.toList ++ rest).length ≠ 6) :
    reg.parse (symbol.toList ++ rest) ≠ ⟨value, value'⟩ := by
  intro together
  have valid := (settled.valid_of_delimited found delimited).1
  rcases reg.parse_cut here with ⟨six, -⟩ | read
  · exact long six
  · rw [together] at read
    have whole := settled.consistent.length_take found valid
      (congrArg CurrencyPair.baseCCY read).symm (le_of_lt (cut_lt here))
    omega

theorem Settled.roundTrips_iff (settled : reg.Settled) : reg.RoundTrips ↔ reg.PlainSymbols := by
  constructor
  · intro roundTrips symbol value found
    by_contra delimited
    obtain ⟨valid, other⟩ := settled.valid_of_delimited found delimited
    have three := settled.three_of_delimited found delimited
    have reads := roundTrips.pairs ⟨value, .usd⟩ symbol "USD"
      ((settled.bijective _ _).mp found) settled.dollar
      ⟨valid, (by decide : Currency.usd.Valid)⟩ other
    have long (delimiter : Char) :
        (symbol.toList ++ delimiter :: "USD".toList).length ≠ 6 := by
      simp [three]
    by_cases slash : '/' ∈ symbol.toList
    · obtain ⟨p, first⟩ : ∃ p, symbol.toList.findIdx? (· == '/') = some p := by
        apply Option.isSome_iff_exists.mp
        rw [List.findIdx?_isSome, List.any_eq_true]
        exact ⟨'/', slash, rfl⟩
      have early := (List.findIdx?_eq_some_iff_getElem.mp first).1
      exact settled.misread found delimited (cut_append first _) early (long '/') reads.slash
    · have dash : '-' ∈ symbol.toList := by
        unfold Plain at delimited
        tauto
      obtain ⟨p, first⟩ : ∃ p, symbol.toList.findIdx? (· == '-') = some p := by
        apply Option.isSome_iff_exists.mp
        rw [List.findIdx?_isSome, List.any_eq_true]
        exact ⟨'-', dash, rfl⟩
      have early := (List.findIdx?_eq_some_iff_getElem.mp first).1
      have missing : (symbol.toList ++ '-' :: "USD".toList).findIdx? (· == '/') = none := by
        rw [List.findIdx?_eq_none_iff]
        intro c member
        rw [beq_eq_false_iff_ne]
        rintro rfl
        simp [slash] at member
      have second : (symbol.toList ++ '-' :: "USD".toList).findIdx? (· == '-') = some p := by
        rw [List.findIdx?_append, first]
        rfl
      have here : cut (symbol.toList ++ '-' :: "USD".toList) = some p := by
        rw [cut, missing]
        exact second
      exact settled.misread found delimited here early (long '-') reads.dash
  · intro plain
    exact Sound.roundTrips ⟨settled.bijective, settled.checked, plain⟩

theorem Bijective.extend (bijective : reg.Bijective) {value : Currency} {symbol : String}
    (newValue : reg.valToStr value = none) (absent : reg.strToVal.lookup symbol = none) :
    (reg.extend value symbol).Bijective := by
  intro symbol' value'
  constructor
  · exact reg.extend_mirrored newValue absent fun symbol value => (bijective symbol value).mp
  · intro text
    unfold Registry.extend at text ⊢
    dsimp only at text ⊢
    rw [lookup_emplace absent]
    by_cases here : value' = value
    · rw [here, Function.update_self] at text
      rw [if_pos (Option.some.inj text).symm, here]
    · rw [Function.update_of_ne here] at text
      have found := (bijective symbol' value').mpr text
      have other : symbol' ≠ symbol := by
        rintro rfl
        rw [absent] at found
        cases found
      rw [if_neg other, found]

theorem extend_keeps {value c : Currency} {symbol text : String}
    (newValue : reg.valToStr value = none) (known : reg.valToStr c = some text) :
    (reg.extend value symbol).valToStr c = some text := by
  have other : c ≠ value := by
    rintro rfl
    rw [newValue] at known
    cases known
  exact (Function.update_of_ne other _ _).trans known

theorem registerCurrency_keeps {c : Currency} {text : String}
    (known : reg.valToStr c = some text) (value : Currency) (symbol : String) :
    (reg.registerCurrency value symbol).1.valToStr c = some text := by
  obtain same | ⟨newValue, -, -, same⟩ := reg.registerCurrency_cases value symbol
  · rw [same]
    exact known
  · rw [same]
    exact extend_keeps newValue known

theorem Settled.registerCurrency (settled : reg.Settled) (value : Currency) (symbol : String) :
    (reg.registerCurrency value symbol).1.Settled := by
  have empty := registerCurrency_keeps settled.empty value symbol
  have dollar := registerCurrency_keeps settled.dollar value symbol
  have invalid := registerCurrency_keeps settled.invalid value symbol
  obtain same | ⟨newValue, absent, checked, same⟩ := reg.registerCurrency_cases value symbol
  · rw [same]
    exact settled
  · rw [same] at empty dollar invalid ⊢
    exact ⟨settled.bijective.extend newValue absent, checked, empty, dollar, invalid, settled.pips⟩

theorem parse_precision (cpToPrecision : CurrencyPair → Option (ℤ × ℤ)) (sv : List Char) :
    { reg with cpToPrecision }.parse sv = reg.parse sv := by
  have loop (symbols : List (String × Currency)) :
      { reg with cpToPrecision }.parseConcatenation sv symbols =
        reg.parseConcatenation sv symbols := by
    induction symbols with
    | nil => rfl
    | cons entry symbols ih =>
        unfold parseConcatenation
        rw [ih]
        rfl
  unfold parse
  rw [loop]
  rfl

theorem checked_precision (cpToPrecision : CurrencyPair → Option (ℤ × ℤ)) :
    { reg with cpToPrecision }.checkRegisteredCurrencies = reg.checkRegisteredCurrencies := by
  unfold checkRegisteredCurrencies
  simp only [parse_precision]
  rfl

theorem Settled.withPrecision (settled : reg.Settled) (cp : CurrencyPair) (precision : ℤ) {pip : ℤ}
    (positive : 0 < pip) : Settled { reg with
      cpToPrecision := Function.update reg.cpToPrecision cp (some (precision, pip)) } where
  bijective := settled.bijective
  checked := (checked_precision _).trans settled.checked
  empty := settled.empty
  dollar := settled.dollar
  invalid := settled.invalid
  pips cp' precision' known := by
    by_cases here : cp' = cp
    · rw [here] at known
      dsimp only at known
      rw [Function.update_self] at known
      obtain rfl := Option.some.inj known
      exact positive
    · dsimp only at known
      rw [Function.update_of_ne here] at known
      exact settled.pips cp' precision' known

theorem valToStrMapping_settled : valToStrMapping.Settled where
  bijective := valToStrMapping_bijective
  checked := valToStrMapping_checked
  empty := rfl
  dollar := rfl
  invalid := by decide +kernel
  pips _ _ known := by cases known

end Registry

namespace Names
variable {s : Names}

theorem subscript_of_known {reg : Registry} {c : Currency} (known : (reg.valToStr c).isSome) :
    reg.subscript c = reg := by
  obtain ⟨text, found⟩ := Option.isSome_iff_exists.mp known
  have same : some (reg.symbol c) = reg.valToStr c := by rw [Registry.symbol, found, Option.getD_some]
  rw [Registry.subscript, same, Function.update_eq_self]

theorem reg_reported {cp : CurrencyPair} (known : cp.Valid →
    (s.reg.valToStr cp.baseCCY).isSome ∧ (s.reg.valToStr cp.quoteCCY).isSome) :
    (s.reported cp).reg = s.reg := by
  unfold reported
  split
  next => rfl
  next readable =>
    obtain ⟨-, same⟩ | ⟨entry, -, -, same⟩ | ⟨filled, -, same⟩ := s.toString_cases cp
    · rw [same]
    · rw [same]
    · have valid : cp.Valid := by
        by_contra invalid
        exact readable ⟨filled, invalid⟩
      rw [same, subscript_of_known (known valid).1, subscript_of_known (known valid).2]
      rfl

theorem registerCurrency_reg (bijective : s.reg.Bijective) (value : Currency) (symbol : String) :
    (s.registerCurrency value symbol).2.reg = (s.reg.registerCurrency value symbol).1 := by
  have check := (s.reg.extend value symbol).checkRegisteredCurrencies_eq
  obtain ⟨message, known, same⟩ | ⟨newValue, absent, ⟨clean, same⟩ |
    ⟨pair, cp, message, s', conflict, left, same⟩⟩ := s.registerCurrency_cases value symbol
  · rw [same, Registry.registerCurrency]
    rcases known with known | known
    · rw [if_pos known]
    · rw [if_pos known, ite_self]
  · simp [same, Registry.registerCurrency, newValue, absent, check, clean]
  · have extended := bijective.extend newValue absent
    obtain ⟨iter1, -, inner⟩ := List.exists_of_findSome?_eq_some conflict
    obtain ⟨iter2, -, found⟩ := List.exists_of_findSome?_eq_some inner
    have read : cp = (s.reg.extend value symbol).parse (iter1.1.toList ++ iter2.1.toList) := by
      unfold Registry.conflictOf at found
      split at found
      next =>
        dsimp only at found
        split at found
        next => exact (Prod.mk.inj (Option.some.inj found)).2.symm
        next => cases found
      next => cases found
    have known (valid : cp.Valid) :
        ((s.reg.extend value symbol).valToStr cp.baseCCY).isSome ∧
          ((s.reg.extend value symbol).valToStr cp.quoteCCY).isSome := by
      obtain ⟨base, quote, baseFound, quoteFound⟩ := read ▸
        (s.reg.extend value symbol).parse_registered _ (read ▸ valid)
      rw [(extended _ _).mp baseFound, (extended _ _).mp quoteFound]
      exact ⟨rfl, rfl⟩
    have unchanged := reg_reported (s := { s with reg := s.reg.extend value symbol }) known
    rw [same, left]
    dsimp only
    rw [unchanged]
    simp [Registry.registerCurrency, Registry.withdraw, newValue, absent, check, conflict]

end Names
end SpotGridBot.Utils
