import SpotGridBot.Utils.Registered
import SpotGridBot.Lib.Runs

namespace SpotGridBot.Utils
open Runs

def translateSymbol (symbol : String) : String := String.ofList (symbol.toList.filter (· ≠ '-'))

namespace Registry
variable (reg : Registry)

def translateSymbolToExchangeSpecific (cp : CurrencyPair) : String :=
  reg.symbol cp.baseCCY ++ "-" ++ reg.symbol cp.quoteCCY

structure Registration where
  value : Currency
  symbol : String

def register (call : Registration) : Registry := (reg.registerCurrency call.value call.symbol).1

def Plain (symbol : String) : Prop := '-' ∉ symbol.toList ∧ '/' ∉ symbol.toList

instance (symbol : String) : Decidable (Plain symbol) :=
  inferInstanceAs (Decidable (¬ _ ∧ ¬ _))

def Bijective : Prop :=
  ∀ symbol value, reg.strToVal.lookup symbol = some value ↔ reg.valToStr value = some symbol

structure ReadsBack (cp : CurrencyPair) (base quote : String) : Prop where
  slash : reg.parse (base.toList ++ '/' :: quote.toList) = cp
  dash : reg.parse (base.toList ++ '-' :: quote.toList) = cp
  concatenation : reg.parse (base.toList ++ quote.toList) = cp
  exchangeSpecific :
    reg.parse (translateSymbol (reg.translateSymbolToExchangeSpecific cp)).toList = cp

structure RoundTrips : Prop where
  bijective : reg.Bijective
  pairs : ∀ cp base quote, reg.valToStr cp.baseCCY = some base →
    reg.valToStr cp.quoteCCY = some quote → cp.Valid → cp.baseCCY ≠ cp.quoteCCY →
    reg.ReadsBack cp base quote

def FailsClean (call : Registration) : Prop :=
  (reg.registerCurrency call.value call.symbol).2 = false →
    (reg.register call).valToStr = reg.valToStr ∧ (reg.register call).strToVal = reg.strToVal

structure Sound : Prop where
  bijective : reg.Bijective
  checked : reg.checkRegisteredCurrencies = true
  plain : ∀ symbol value, reg.strToVal.lookup symbol = some value → Plain symbol

variable {reg}

theorem Sound.not_standard (sound : reg.Sound) (sv : List Char) {delimiter : Char}
    (inside : delimiter ∈ sv) (either : delimiter = '/' ∨ delimiter = '-') :
    ¬ CurrencyPair.Valid ⟨reg.currency (sv.take 3), reg.currency (sv.drop 3)⟩ := by
  have outside {part : List Char} (valid : (reg.currency part).Valid) : delimiter ∉ part := by
    have plain := sound.plain _ _ (reg.currency_valid valid)
    rw [Plain, String.toList_ofList] at plain
    obtain rfl | rfl := either
    · exact plain.2
    · exact plain.1
  rintro ⟨valid, valid'⟩
  rw [← List.take_append_drop 3 sv, List.mem_append] at inside
  cases inside with
  | inl first => exact outside valid first
  | inr second => exact outside valid' second

theorem findIdx?_delimiter {delimiter : Char} {base : List Char} (outside : delimiter ∉ base)
    (rest : List Char) :
    (base ++ delimiter :: rest).findIdx? (· == delimiter) = some base.length := by
  have missing : base.findIdx? (· == delimiter) = none := by
    rw [List.findIdx?_eq_none_iff]
    intro c member
    rw [beq_eq_false_iff_ne]
    rintro rfl
    exact outside member
  rw [List.findIdx?_append, missing, List.findIdx?_cons]
  simp

theorem splitAt_length {base quote : List Char} (delimiter : Char) :
    reg.splitAt (base ++ delimiter :: quote) base.length =
      ⟨reg.currency base, reg.currency quote⟩ := by
  simp [splitAt]

theorem Sound.parse_slash (sound : reg.Sound) {base quote : List Char} (plain : '/' ∉ base) :
    reg.parse (base ++ '/' :: quote) = ⟨reg.currency base, reg.currency quote⟩ := by
  have other := sound.not_standard (base ++ '/' :: quote) (by simp) (.inl rfl)
  unfold parse
  dsimp only
  rw [if_neg (by simp), if_neg (fun standard => other standard.2), findIdx?_delimiter plain]
  exact reg.splitAt_length '/'

theorem Sound.parse_dash (sound : reg.Sound) {base quote : List Char} (plain : '-' ∉ base)
    (noSlash : '/' ∉ base) (noSlash' : '/' ∉ quote) :
    reg.parse (base ++ '-' :: quote) = ⟨reg.currency base, reg.currency quote⟩ := by
  have other := sound.not_standard (base ++ '-' :: quote) (by simp) (.inr rfl)
  have missing : (base ++ '-' :: quote).findIdx? (· == '/') = none := by
    rw [List.findIdx?_eq_none_iff]
    intro c member
    rw [beq_eq_false_iff_ne]
    rintro rfl
    simp [noSlash, noSlash'] at member
  unfold parse
  dsimp only
  rw [if_neg (by simp), if_neg (fun standard => other standard.2), missing,
    findIdx?_delimiter plain]
  exact reg.splitAt_length '-'

theorem Sound.consistent (sound : reg.Sound) : reg.Consistent :=
  ⟨fun symbol value => (sound.bijective symbol value).mp, sound.checked⟩

theorem Sound.symbol_plain (sound : reg.Sound) (c : Currency) : Plain (reg.symbol c) := by
  unfold Registry.symbol
  cases text : reg.valToStr c with
  | none => decide
  | some symbol => exact sound.plain symbol c ((sound.bijective symbol c).mpr text)

theorem toList_toString {cp : CurrencyPair} (nonempty : ¬ cp.Empty) : (reg.toString cp).toList =
    (reg.symbol cp.baseCCY).toList ++ '/' :: (reg.symbol cp.quoteCCY).toList := by
  rw [Registry.toString, if_neg nonempty]
  simp

theorem toList_exchangeSpecific (cp : CurrencyPair) :
    (reg.translateSymbolToExchangeSpecific cp).toList =
      (reg.symbol cp.baseCCY).toList ++ '-' :: (reg.symbol cp.quoteCCY).toList := by
  simp [translateSymbolToExchangeSpecific]

theorem filter_dash {symbol : List Char} (plain : '-' ∉ symbol) :
    symbol.filter (· ≠ '-') = symbol := by
  rw [List.filter_eq_self]
  intro c member
  rw [decide_eq_true_iff]
  rintro rfl
  exact plain member

theorem translateSymbol_exchangeSpecific {cp : CurrencyPair}
    (plain : '-' ∉ (reg.symbol cp.baseCCY).toList) (plain' : '-' ∉ (reg.symbol cp.quoteCCY).toList) :
    (translateSymbol (reg.translateSymbolToExchangeSpecific cp)).toList =
      (reg.symbol cp.baseCCY).toList ++ (reg.symbol cp.quoteCCY).toList := by
  rw [translateSymbol, String.toList_ofList, toList_exchangeSpecific, List.filter_append,
    List.filter_cons_of_neg (by simp), filter_dash plain, filter_dash plain']

theorem Sound.readsBack (sound : reg.Sound) {cp : CurrencyPair} {base quote : String}
    (text : reg.valToStr cp.baseCCY = some base) (text' : reg.valToStr cp.quoteCCY = some quote)
    (valid : cp.Valid) (distinct : cp.baseCCY ≠ cp.quoteCCY) : reg.ReadsBack cp base quote := by
  have found := (sound.bijective base cp.baseCCY).mpr text
  have found' := (sound.bijective quote cp.quoteCCY).mpr text'
  have plain := sound.plain base cp.baseCCY found
  have plain' := sound.plain quote cp.quoteCCY found'
  have read : reg.currency base.toList = cp.baseCCY := by simp [currency, found]
  have read' : reg.currency quote.toList = cp.quoteCCY := by simp [currency, found']
  have together := concatenation_of_checked sound.checked found found' valid.1 valid.2 distinct
  have symbol := sound.consistent.symbol_eq found
  have symbol' := sound.consistent.symbol_eq found'
  constructor
  · rw [sound.parse_slash plain.2, read, read']
  · rw [sound.parse_dash plain.1 plain.2 plain'.2, read, read']
  · exact together
  · rw [translateSymbol_exchangeSpecific (by rw [symbol]; exact plain.1)
      (by rw [symbol']; exact plain'.1), symbol, symbol']
    exact together

theorem Sound.roundTrips (sound : reg.Sound) : reg.RoundTrips where
  bijective := sound.bijective
  pairs := fun _ _ _ => sound.readsBack

theorem failsClean (call : Registration) : reg.FailsClean call := by
  intro failed
  unfold register
  obtain same | ⟨-, -, -, same⟩ := reg.registerCurrency_cases call.value call.symbol
  · rw [same]
    exact ⟨rfl, rfl⟩
  · rw [same] at failed
    cases failed

theorem Sound.register (sound : reg.Sound) {call : Registration} (plain : Plain call.symbol) :
    (reg.register call).Sound := by
  unfold Registry.register
  obtain same | ⟨newValue, absent, checked, same⟩ :=
    reg.registerCurrency_cases call.value call.symbol
  · rw [same]
    exact sound
  · rw [same]
    refine ⟨?_, checked, ?_⟩
    · intro symbol value
      constructor
      · exact reg.extend_mirrored newValue absent fun symbol value => (sound.bijective symbol value).mp
      · intro text
        unfold extend at text ⊢
        dsimp only at text ⊢
        rw [lookup_emplace absent]
        by_cases here : value = call.value
        · rw [here, Function.update_self] at text
          obtain rfl := Option.some.inj text
          rw [if_pos rfl, here]
        · rw [Function.update_of_ne here] at text
          have found := (sound.bijective symbol value).mpr text
          have other : symbol ≠ call.symbol := by
            rintro rfl
            rw [absent] at found
            cases found
          rw [if_neg other, found]
    · intro symbol value found
      unfold extend at found
      dsimp only at found
      rw [lookup_emplace absent] at found
      split at found
      next here => rwa [here]
      next => exact sound.plain symbol value found

/-- Whatever is registered, every pair of two currencies is read back from its symbols. -/
theorem registered_pairs_round_trip (bijective : reg.Bijective)
    (checked : reg.checkRegisteredCurrencies = true)
    (plain : ∀ symbol value, reg.strToVal.lookup symbol = some value → Plain symbol)
    (calls : List Registration) (plainCalls : ∀ call ∈ calls, Plain call.symbol) :
    Always register RoundTrips reg calls ∧ Along register FailsClean reg calls := by
  have keep : ∀ (s : Registry) (call : Registration), Plain call.symbol → s.Sound →
      (s.register call).Sound := fun _ _ plain sound => sound.register plain
  have sound : Always register Sound reg calls :=
    always_of_invariant keep ⟨bijective, checked, plain⟩ (along_of_forall plainCalls reg)
  exact ⟨sound.mono fun _ => Sound.roundTrips, along_of_each (fun _ => failsClean) reg calls⟩

def majors : Registry where
  valToStr c :=
    if c = Currency.eur then some "EUR" else if c = Currency.usd then some "USD" else none
  strToVal := [("EUR", Currency.eur), ("USD", Currency.usd)]
  cpToPrecision _ := none

theorem majors_bijective : majors.Bijective := by
  intro symbol value
  refine ⟨majors.mirrored_of_mem (by decide) symbol value, fun text => ?_⟩
  simp only [majors] at text
  split_ifs at text with euro dollar
  · obtain rfl := Option.some.inj text
    rw [euro]
    rfl
  · obtain rfl := Option.some.inj text
    rw [dollar]
    rfl

theorem majors_sound : majors.Sound := by
  refine ⟨majors_bijective, by decide +kernel, fun symbol value found => ?_⟩
  have text := (majors_bijective symbol value).mp found
  simp only [majors] at text
  split_ifs at text
  · obtain rfl := Option.some.inj text
    decide
  · obtain rfl := Option.some.inj text
    decide

theorem majors_round_trip :
    Always register RoundTrips majors [⟨⟨71⟩, "EU"⟩, ⟨⟨72⟩, "EU"⟩, ⟨⟨72⟩, "RUSD"⟩] ∧
      Along register FailsClean majors [⟨⟨71⟩, "EU"⟩, ⟨⟨72⟩, "EU"⟩, ⟨⟨72⟩, "RUSD"⟩] :=
  registered_pairs_round_trip majors_sound.bijective majors_sound.checked majors_sound.plain _
    (by decide)

end Registry

end SpotGridBot.Utils
