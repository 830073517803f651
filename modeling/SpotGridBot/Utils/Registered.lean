import SpotGridBot.Utils.CurrencyPair
import Mathlib.Logic.Function.Basic

namespace SpotGridBot.Utils
namespace Registry
variable (reg : Registry)

def checkRegisteredCurrencies : Bool :=
  reg.strToVal.all fun iter1 => reg.strToVal.all fun iter2 =>
    if iter1.2.Valid ∧ iter2.2.Valid ∧ iter1.2 ≠ iter2.2 then
      let cp := reg.parse (iter1.1.toList ++ iter2.1.toList)
      decide (cp.Empty ∨ cp.Valid) &&
        (cp.baseCCY == reg.currency iter1.1.toList && cp.quoteCCY == reg.currency iter2.1.toList)
    else true

def emplace (symbol : String) (value : Currency) (map : List (String × Currency)) :
    List (String × Currency) :=
  map.takeWhile (fun entry => entry.1 < symbol) ++
    (symbol, value) :: map.dropWhile (fun entry => entry.1 < symbol)

def erase (symbol : String) (map : List (String × Currency)) : List (String × Currency) :=
  map.filter fun entry => entry.1 ≠ symbol

def extend (value : Currency) (symbol : String) : Registry :=
  { reg with
    valToStr := Function.update reg.valToStr value (some symbol)
    strToVal := emplace symbol value reg.strToVal }

/-- The registry after the call, and whether the call succeeded. -/
def registerCurrency (value : Currency) (symbol : String) : Registry × Bool :=
  if (reg.valToStr value).isSome then (reg, false)
  else if (reg.strToVal.lookup symbol).isSome then (reg, false)
  else
    let extended := reg.extend value symbol
    if extended.checkRegisteredCurrencies then (extended, true)
    else
      -- Remove the conflicting entry.
      ({ extended with
        valToStr := Function.update extended.valToStr value none
        strToVal := erase symbol extended.strToVal }, false)

structure Consistent : Prop where
  mirrored : ∀ symbol value, reg.strToVal.lookup symbol = some value →
    reg.valToStr value = some symbol
  checked : reg.checkRegisteredCurrencies = true

theorem mirrored_of_mem
    (entries : ∀ entry ∈ reg.strToVal, reg.valToStr entry.2 = some entry.1) (symbol : String)
    (value : Currency) (found : reg.strToVal.lookup symbol = some value) :
    reg.valToStr value = some symbol := by
  obtain ⟨front, rest, table, -⟩ := List.lookup_eq_some_iff.mp found
  exact entries (symbol, value) (by simp [table])

theorem lookup_emplace {symbol : String} {map : List (String × Currency)}
    (absent : map.lookup symbol = none) (value : Currency) (symbol' : String) :
    (emplace symbol value map).lookup symbol' =
      if symbol' = symbol then some value else map.lookup symbol' := by
  have parts := map.takeWhile_append_dropWhile (p := fun entry => decide (entry.1 < symbol))
  have old : map.lookup symbol' =
      ((map.takeWhile fun entry => entry.1 < symbol).lookup symbol').or
        ((map.dropWhile fun entry => entry.1 < symbol).lookup symbol') := by
    rw [← List.lookup_append, parts]
  unfold emplace
  rw [List.lookup_append, List.lookup_cons]
  by_cases same : symbol' = symbol
  · subst same
    rw [absent] at old
    have before := (Option.or_eq_none_iff.mp old.symm).1
    rw [before, Option.none_or, beq_self_eq_true, if_pos rfl]
  · have other : (symbol' == symbol) = false := beq_eq_false_iff_ne.mpr same
    rw [other, if_neg same, old]

theorem erase_emplace {symbol : String} {map : List (String × Currency)}
    (absent : map.lookup symbol = none) (value : Currency) :
    erase symbol (emplace symbol value map) = map := by
  have kept : ∀ entry ∈ map, entry.1 ≠ symbol := by
    intro entry member same
    have differs := List.lookup_eq_none_iff.mp absent entry member
    simp [same] at differs
  unfold erase emplace
  rw [List.filter_append, List.filter_cons_of_neg (by simp), ← List.filter_append,
    List.takeWhile_append_dropWhile]
  exact List.filter_eq_self.mpr fun entry member => by simp [kept entry member]

theorem registerCurrency_cases (value : Currency) (symbol : String) :
    reg.registerCurrency value symbol = (reg, false) ∨
      reg.valToStr value = none ∧ reg.strToVal.lookup symbol = none ∧
        (reg.extend value symbol).checkRegisteredCurrencies = true ∧
        reg.registerCurrency value symbol = (reg.extend value symbol, true) := by
  unfold registerCurrency
  split
  next => exact .inl rfl
  next newValue =>
    have noText := Option.not_isSome_iff_eq_none.mp newValue
    split
    next => exact .inl rfl
    next newSymbol =>
      have absent := Option.not_isSome_iff_eq_none.mp newSymbol
      dsimp only
      split
      next checked => exact .inr ⟨noText, absent, checked, rfl⟩
      next =>
        left
        have texts : Function.update (reg.extend value symbol).valToStr value none = reg.valToStr := by
          unfold extend
          rw [Function.update_idem, ← noText, Function.update_eq_self]
        have values : erase symbol (reg.extend value symbol).strToVal = reg.strToVal :=
          erase_emplace absent value
        rw [texts, values]
        rfl

theorem extend_mirrored {value : Currency} {symbol : String} (newValue : reg.valToStr value = none)
    (absent : reg.strToVal.lookup symbol = none)
    (mirrored : ∀ symbol value, reg.strToVal.lookup symbol = some value →
      reg.valToStr value = some symbol) {symbol' : String} {value' : Currency}
    (found : (reg.extend value symbol).strToVal.lookup symbol' = some value') :
    (reg.extend value symbol).valToStr value' = some symbol' := by
  unfold extend at found ⊢
  dsimp only at found ⊢
  rw [lookup_emplace absent] at found
  split at found
  next same =>
    obtain rfl := Option.some.inj found
    rw [same, Function.update_self]
  next =>
    have text := mirrored symbol' value' found
    have other : value' ≠ value := by
      rintro rfl
      simp [text] at newValue
    rw [Function.update_of_ne other, text]

def Registered (cp : CurrencyPair) : Prop :=
  ∃ base quote, reg.strToVal.lookup base = some cp.baseCCY ∧
    reg.strToVal.lookup quote = some cp.quoteCCY

theorem currency_valid {sv : List Char} (valid : (reg.currency sv).Valid) :
    reg.strToVal.lookup (String.ofList sv) = some (reg.currency sv) := by
  unfold currency at valid ⊢
  split
  next value found => exact found
  next missing =>
    rw [missing] at valid
    dsimp only at valid
    split at valid
    · exact absurd rfl valid.1
    · exact absurd rfl valid.2

def ReadInParts (cp : CurrencyPair) : Prop :=
  (∃ base quote, cp = ⟨reg.currency base, reg.currency quote⟩) ∨ ¬ cp.Valid

def ReadAs (sv base quote : List Char) : Prop :=
  reg.parse sv = ⟨reg.currency base, reg.currency quote⟩ ∧
    (sv = base ++ quote ∨ sv = base ++ '/' :: quote ∨ sv = base ++ '-' :: quote)

theorem prefix_of_find {pattern sv : List Char} {p : Nat} (found : find pattern sv = some p) :
    pattern <+: sv.drop p := by
  induction sv generalizing p with
  | nil =>
      unfold find at found
      split at found
      next empty => simp [List.isEmpty_iff.mp empty]
      next => cases found
  | cons c sv ih =>
      unfold find at found
      split at found
      next here =>
        obtain rfl := Option.some.inj found
        exact List.isPrefixOf_iff_prefix.mp here
      next =>
        obtain ⟨q, later, rfl⟩ := Option.map_eq_some_iff.mp found
        exact ih later

theorem parseConcatenation_parts (sv : List Char) (symbols : List (String × Currency)) :
    (∃ base quote, reg.parseConcatenation sv symbols = ⟨reg.currency base, reg.currency quote⟩ ∧
      sv = base ++ quote) ∨ reg.parseConcatenation sv symbols = ⟨.invalid, .invalid⟩ := by
  induction symbols with
  | nil => exact .inr rfl
  | cons entry symbols ih =>
      obtain ⟨symbol, value⟩ := entry
      unfold parseConcatenation
      split
      · exact ih
      · split
        next => exact ih
        next p found =>
          obtain ⟨rest, continued⟩ := prefix_of_find found
          dsimp only
          split_ifs with left valid right valid
          · rw [left, List.drop_zero] at continued
            refine .inl ⟨_, _, rfl, ?_⟩
            rw [← continued, ← String.length_toList, List.drop_left]
          · exact ih
          · have lengths := congrArg List.length continued
            simp only [List.length_append, List.length_drop, String.length_toList] at lengths
            have whole : rest = [] := by
              apply List.eq_nil_of_length_eq_zero
              omega
            rw [whole, List.append_nil] at continued
            refine .inl ⟨_, _, rfl, ?_⟩
            rw [continued, List.take_append_drop]
          · exact ih
          · exact ih

theorem findIdx?_parts {sv : List Char} {delimiter : Char} {p : Nat}
    (found : sv.findIdx? (· == delimiter) = some p) :
    sv = sv.take p ++ delimiter :: sv.drop (p + 1) := by
  obtain ⟨inside, here, -⟩ := List.findIdx?_eq_some_iff_getElem.mp found
  rw [← eq_of_beq here, List.getElem_cons_drop, List.take_append_drop]

theorem parse_parts (sv : List Char) :
    sv = [] ∨ (∃ base quote, reg.ReadAs sv base quote) ∨
      reg.parse sv = ⟨.invalid, .invalid⟩ := by
  unfold ReadAs parse
  dsimp only
  split
  next empty => exact .inl (List.isEmpty_iff.mp empty)
  next =>
    right
    split
    next => exact .inl ⟨_, _, rfl, .inl (List.take_append_drop 3 sv).symm⟩
    next =>
      split
      next p found =>
        refine .inl ⟨_, _, rfl, .inr ?_⟩
        cases slash : sv.findIdx? (· == '/') with
        | some q =>
            rw [slash] at found
            obtain rfl := Option.some.inj found
            exact .inl (findIdx?_parts slash)
        | none =>
            rw [slash] at found
            exact .inr (findIdx?_parts found)
      next =>
        rcases reg.parseConcatenation_parts sv reg.strToVal with ⟨base, quote, read, whole⟩ | invalid
        · exact .inl ⟨base, quote, read, .inl whole⟩
        · exact .inr invalid

theorem readInParts_parse (sv : List Char) : reg.ReadInParts (reg.parse sv) := by
  rcases reg.parse_parts sv with empty | ⟨base, quote, read, -⟩ | invalid
  · rw [empty]
    exact .inr fun valid => valid.1.1 rfl
  · exact .inl ⟨base, quote, read⟩
  · rw [invalid]
    exact .inr fun valid => valid.1.2 rfl

theorem parse_registered (sv : List Char) (valid : (reg.parse sv).Valid) :
    reg.Registered (reg.parse sv) := by
  rcases reg.readInParts_parse sv with ⟨base, quote, parts⟩ | invalid
  · rw [parts] at valid ⊢
    exact ⟨_, _, reg.currency_valid valid.1, reg.currency_valid valid.2⟩
  · exact absurd valid invalid

variable {reg}

theorem Consistent.symbol_eq (consistent : reg.Consistent) {symbol : String} {value : Currency}
    (found : reg.strToVal.lookup symbol = some value) : reg.symbol value = symbol := by
  rw [Registry.symbol, consistent.mirrored symbol value found, Option.getD_some]

theorem Consistent.text_of_currency (consistent : reg.Consistent) {sv : List Char}
    {symbol : String} {value : Currency} (found : reg.strToVal.lookup symbol = some value)
    (valid : value.Valid) (same : reg.currency sv = value) : sv = symbol.toList := by
  subst same
  have texts := (consistent.symbol_eq (reg.currency_valid valid)).symm.trans
    (consistent.symbol_eq found)
  rw [← texts, String.toList_ofList]

theorem concatenation_of_checked (checked : reg.checkRegisteredCurrencies = true)
    {first second : String} {value value' : Currency}
    (found : reg.strToVal.lookup first = some value)
    (found' : reg.strToVal.lookup second = some value') (valid : value.Valid)
    (valid' : value'.Valid) (distinct : value ≠ value') :
    reg.parse (first.toList ++ second.toList) = ⟨value, value'⟩ := by
  have member {symbol : String} {c : Currency} (found : reg.strToVal.lookup symbol = some c) :
      (symbol, c) ∈ reg.strToVal := by
    obtain ⟨before, after, split, -⟩ := List.lookup_eq_some_iff.mp found
    rw [split]
    exact List.mem_append_right _ List.mem_cons_self
  have inner := List.all_eq_true.mp checked _ (member found)
  have agrees := List.all_eq_true.mp inner _ (member found')
  have base : reg.currency first.toList = value := by simp [currency, found]
  have quote : reg.currency second.toList = value' := by simp [currency, found']
  simp only [valid, valid', ne_eq, distinct, not_false_eq_true, and_self, if_true, Bool.and_eq_true,
    beq_iff_eq, base, quote] at agrees
  obtain ⟨-, sameBase, sameQuote⟩ := agrees
  rw [← sameBase, ← sameQuote]

theorem Consistent.symbol_not_continued (consistent : reg.Consistent) {short long : String}
    {value value' : Currency} (found : reg.strToVal.lookup long = some value)
    (found' : reg.strToVal.lookup short = some value') (valid : value.Valid) (valid' : value'.Valid)
    {rest : List Char} : long.toList ≠ short.toList ++ '/' :: rest := by
  intro continued
  have longer : short.toList.length < long.toList.length := by simp [continued]
  have distinct : value ≠ value' := by
    rintro rfl
    have texts := (consistent.symbol_eq found).symm.trans (consistent.symbol_eq found')
    simp [texts] at longer
  have base := congrArg CurrencyPair.baseCCY
    (concatenation_of_checked consistent.checked found found' valid valid' distinct)
  have whole : ∀ sv : List Char, reg.currency sv = value → sv.length = long.toList.length :=
    fun sv same => congrArg List.length (consistent.text_of_currency found valid same)
  obtain ⟨p, separator⟩ : ∃ p, long.toList.findIdx? (· == '/') = some p := by
    apply Option.isSome_iff_exists.mp
    rw [List.findIdx?_isSome, continued]
    simp
  obtain ⟨inside, -⟩ := List.findIdx?_eq_some_iff_getElem.mp separator
  unfold parse at base
  dsimp only at base
  split_ifs at base with empty standard
  · simp [continued] at empty
  · have three := whole _ base
    have six := standard.1
    simp only [List.length_take, List.length_append] at three six
    omega
  · rw [List.findIdx?_append, separator] at base
    have cut := whole _ base
    simp only [List.length_take, List.length_append] at cut
    omega

theorem Consistent.toString_injective (consistent : reg.Consistent) {cp cp' : CurrencyPair}
    (registered : reg.Registered cp) (registered' : reg.Registered cp') (valid : cp.Valid)
    (valid' : cp'.Valid) (same : reg.toString cp = reg.toString cp') : cp = cp' := by
  obtain ⟨base, quote, baseFound, quoteFound⟩ := registered
  obtain ⟨base', quote', baseFound', quoteFound'⟩ := registered'
  have name {cp : CurrencyPair} {base quote : String} (valid : cp.Valid)
      (baseFound : reg.strToVal.lookup base = some cp.baseCCY)
      (quoteFound : reg.strToVal.lookup quote = some cp.quoteCCY) :
      (reg.toString cp).toList = base.toList ++ '/' :: quote.toList := by
    have nonempty : ¬ cp.Empty := fun empty => valid.1.1 empty.1
    rw [toString, if_neg nonempty, consistent.symbol_eq baseFound,
      consistent.symbol_eq quoteFound]
    simp
  have chars := congrArg String.toList same
  rw [name valid baseFound quoteFound, name valid' baseFound' quoteFound'] at chars
  have bases : base.toList = base'.toList := by
    rcases List.append_eq_append_iff.mp chars with ⟨rest, longer, tail⟩ | ⟨rest, longer, tail⟩
    · cases rest with
      | nil => simpa using longer.symm
      | cons c rest =>
          obtain ⟨rfl, -⟩ := List.cons.inj tail
          exact absurd longer
            (consistent.symbol_not_continued baseFound' baseFound valid'.1 valid.1)
    · cases rest with
      | nil => simpa using longer
      | cons c rest =>
          obtain ⟨rfl, -⟩ := List.cons.inj tail
          exact absurd longer
            (consistent.symbol_not_continued baseFound baseFound' valid.1 valid'.1)
  rw [bases] at chars
  have quotes : quote.toList = quote'.toList := (List.cons.inj (List.append_cancel_left chars)).2
  obtain rfl := String.toList_inj.mp bases
  obtain rfl := String.toList_inj.mp quotes
  obtain ⟨baseCCY, quoteCCY⟩ := cp
  obtain ⟨baseCCY', quoteCCY'⟩ := cp'
  obtain rfl := Option.some.inj (baseFound.symm.trans baseFound')
  obtain rfl := Option.some.inj (quoteFound.symm.trans quoteFound')
  rfl

end Registry

end SpotGridBot.Utils
