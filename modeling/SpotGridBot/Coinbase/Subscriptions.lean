import SpotGridBot.Coinbase.ConnectionMD
import SpotGridBot.Core.MessageProcessor
import SpotGridBot.Lib.Delimited
import Mathlib.Data.String.Basic

namespace SpotGridBot.Coinbase
open Utils SpotGridBot.Core Feed Delimited

def stringTokenizer (text : String) : List String :=
  (tokens ',' isSpace text.toList).map String.ofList

def vecToStr (vec : List String) : String := String.ofList (join ',' (vec.map String.toList))

structure Settings where
  instruments : String := ""
  channels : String := ""

structure Payload where
  type : String
  channel : String
  productIds : List String

structure Subscriptions where
  settings : Settings
  sent : List Payload := []

namespace Subscriptions

def create (settings : Settings) : Subscriptions where
  settings := { settings with instruments := toupper settings.instruments }

variable (reg : Registry) (s : Subscriptions)

def exchangeName (symbol : String) : String :=
  reg.translateSymbolToExchangeSpecific (reg.parse symbol.toList)

def getInstruments : Finset String :=
  ((stringTokenizer s.settings.instruments).map (exchangeName reg)).toFinset

def configure (instruments : String) : Subscriptions :=
  { s with settings := { s.settings with instruments := instruments } }

def send (instruments : List String) (_method : String) (channel : String) : Subscriptions :=
  { s with sent := s.sent ++ [⟨"subscribe", channel, instruments⟩] }

def subscribe (instruments : List String) : Subscriptions :=
  (stringTokenizer s.settings.channels).foldl (fun s tok => s.send instruments "subscribe" tok) s

def unsubscribe (instruments : List String) : Subscriptions :=
  (stringTokenizer s.settings.channels).foldl (fun s tok => s.send instruments "unsubscribe" tok) s

def subscribeInstrument (symbol : String) : Subscriptions × BoolResult :=
  let instStr := toupper symbol
  if (reg.getCurrencyPair (translateSymbol instStr)).Invalid then
    (s, .error ("Invalid instrument '" ++ instStr ++ "'"))
  else
    let existingInstruments := s.getInstruments reg
    if instStr ∈ existingInstruments then
      (s, .error ("Instrument '" ++ instStr ++ "' has been already subscribed"))
    else
      let instruments := String.ofList (extend ',' s.settings.instruments.toList instStr.toList)
      ((s.configure instruments).subscribe [instStr], .ok ())

def unsubscribeInstrument (symbol : String) : Subscriptions × BoolResult :=
  let instStr := toupper symbol
  let existingInstruments := s.getInstruments reg
  if instStr ∉ existingInstruments then
    (s, .error ("Instrument '" ++ instStr ++ "' has not been subscribed"))
  else
    let existingInstruments := existingInstruments.erase instStr
    let instruments := if existingInstruments = ∅ then "" else vecToStr existingInstruments.sort
    ((s.configure instruments).unsubscribe [instStr], .ok ())

def instrument (symbol : String) : CurrencyPair :=
  reg.getCurrencyPair (translateSymbol (toupper symbol))

structure InverseAs (symbol symbol' : String) : Prop where
  rejected : ((s.subscribeInstrument reg symbol).1.subscribeInstrument reg symbol').2 ≠ .ok ()
  succeeds : ((s.subscribeInstrument reg symbol).1.unsubscribeInstrument reg symbol').2 = .ok ()
  restored : ((s.subscribeInstrument reg symbol).1.unsubscribeInstrument reg symbol').1.getInstruments
    reg = s.getInstruments reg

def Inverse (symbol : String) : Prop :=
  ∀ symbol', instrument reg symbol' = instrument reg symbol → s.InverseAs reg symbol symbol'

variable {reg s}

theorem foldl_send (instruments : List String) (method : String) (toks : List String) :
    (toks.foldl (fun s tok => s.send instruments method tok) s).settings = s.settings := by
  induction toks generalizing s with
  | nil => rfl
  | cons tok toks ih => exact ih

theorem getInstruments_congr {s' : Subscriptions} (same : s'.settings = s.settings) :
    s'.getInstruments reg = s.getInstruments reg := by
  rw [getInstruments, same, getInstruments]

theorem dash_of_mem {name : String} (member : name ∈ s.getInstruments reg) :
    '-' ∈ name.toList := by
  obtain ⟨tok, -, rfl⟩ := List.mem_map.mp (List.mem_toFinset.mp member)
  rw [exchangeName, Registry.toList_exchangeSpecific]
  simp

theorem noDash_toString (sound : reg.Sound) (cp : CurrencyPair) :
    '-' ∉ (reg.toString cp).toList := by
  by_cases empty : cp.Empty
  · rw [Registry.toString, if_pos empty]
    exact List.not_mem_nil
  · have base := (sound.symbol_plain cp.baseCCY).1
    have quote := (sound.symbol_plain cp.quoteCCY).1
    rw [Registry.toList_toString empty]
    simp [base, quote]

theorem toUpper_toUpper (c : Char) : c.toUpper.toUpper = c.toUpper := by
  have capital : ¬ ('a'.val ≤ c.toUpper.val ∧ c.toUpper.val ≤ 'z'.val) := by
    delta Char.toUpper
    split
    next lower =>
      dsimp only
      simp [UInt32.le_iff_toNat_le, UInt32.toNat_add] at lower ⊢
      omega
    next other => exact other
  exact dif_neg capital

theorem upper_of_mem {symbol : String} {c : Char} (member : c ∈ (toupper symbol).toList) :
    c.toUpper = c := by
  rw [toupper, String.toList_ofList] at member
  obtain ⟨c, -, rfl⟩ := List.mem_map.mp member
  exact toUpper_toUpper c

theorem toupper_eq_self {symbol : String} (upper : ∀ c ∈ symbol.toList, c.toUpper = c) :
    toupper symbol = symbol := by
  rw [toupper, List.map_congr_left upper, List.map_id', String.ofList_toList]

theorem translateSymbol_eq_self {symbol : String} (plain : '-' ∉ symbol.toList) :
    translateSymbol symbol = symbol := by
  rw [translateSymbol, Registry.filter_dash plain, String.ofList_toList]

theorem symbol_currency (sound : reg.Sound) {sv : List Char} (valid : (reg.currency sv).Valid) :
    (reg.symbol (reg.currency sv)).toList = sv := by
  rw [sound.consistent.symbol_eq (reg.currency_valid valid), String.toList_ofList]

theorem mem_of_translateSymbol {symbol : String} {c : Char}
    (member : c ∈ (translateSymbol symbol).toList) : c ∈ symbol.toList := by
  rw [translateSymbol, String.toList_ofList] at member
  exact (List.mem_filter.mp member).1

theorem toupper_toString (sound : reg.Sound) {symbol : String}
    (valid : (instrument reg symbol).Valid) :
    toupper (reg.toString (instrument reg symbol)) = reg.toString (instrument reg symbol) := by
  have upper : ∀ c ∈ (translateSymbol (toupper symbol)).toList, c.toUpper = c :=
    fun c member => upper_of_mem (mem_of_translateSymbol member)
  unfold instrument Registry.getCurrencyPair at valid ⊢
  rcases reg.parse_parts (translateSymbol (toupper symbol)).toList with
    empty | ⟨base, quote, read, spelled⟩ | invalid
  · rw [empty] at valid
    exact absurd rfl valid.1.1
  · rw [read] at valid ⊢
    apply toupper_eq_self
    intro c member
    have known : c ∈ base ∨ c = '/' ∨ c ∈ quote := by
      rw [Registry.toList_toString fun empty => valid.1.1 empty.1, symbol_currency sound valid.1,
        symbol_currency sound valid.2] at member
      simpa using member
    rcases known with first | rfl | second
    · apply upper
      rcases spelled with whole | whole | whole <;> rw [whole] <;> simp [first]
    · rfl
    · apply upper
      rcases spelled with whole | whole | whole <;> rw [whole] <;> simp [second]
  · rw [invalid] at valid
    exact absurd rfl valid.1.2

theorem instrument_toString (sound : reg.Sound) {symbol : String}
    (accepted : ¬ (instrument reg symbol).Invalid) :
    toupper (reg.toString (instrument reg symbol)) = reg.toString (instrument reg symbol) ∧
      instrument reg (reg.toString (instrument reg symbol)) = instrument reg symbol := by
  have itself := translateSymbol_eq_self (noDash_toString sound (instrument reg symbol))
  by_cases empty : (instrument reg symbol).Empty
  · have text : reg.toString (instrument reg symbol) = "" := by rw [Registry.toString, if_pos empty]
    rw [text]
    refine ⟨rfl, ?_⟩
    generalize instrument reg symbol = cp at empty
    obtain ⟨base, quote⟩ := cp
    obtain ⟨rfl, rfl⟩ := empty
    rfl
  · have valid : (instrument reg symbol).Valid := not_not.mp fun other => accepted ⟨empty, other⟩
    have upper := toupper_toString sound valid
    refine ⟨upper, ?_⟩
    have again : instrument reg (reg.toString (instrument reg symbol)) =
        reg.getCurrencyPair (reg.toString (instrument reg symbol)) := by
      rw [instrument, upper, itself]
    rw [again]
    exact getCurrencyPair_toString sound valid

theorem accepted_iff {symbol : String} : (s.subscribeInstrument reg symbol).2 = .ok () ↔
    ¬ (instrument reg symbol).Invalid ∧ toupper symbol ∉ s.getInstruments reg := by
  unfold subscribeInstrument instrument
  dsimp only
  split
  next invalid => simp [invalid]
  next other =>
    split
    next there => simp [there]
    next missing => simp [other, missing]

/-- The text of the pair is taken as one more instrument, whatever is subscribed. -/
theorem never_inverse (sound : reg.Sound) (s : Subscriptions) (symbol : String)
    (accepted : (s.subscribeInstrument reg symbol).2 = .ok ()) : ¬ s.Inverse reg symbol := by
  intro inverse
  obtain ⟨readable, -⟩ := accepted_iff.mp accepted
  obtain ⟨upper, same⟩ := instrument_toString sound readable
  apply (inverse _ same).rejected
  rw [accepted_iff, same, upper]
  exact ⟨readable, fun member => noDash_toString sound _ (dash_of_mem member)⟩

def ethereum : Subscriptions := create ⟨" eth-usd,", "l2_data"⟩

theorem ethereum_accepts : (ethereum.subscribeInstrument coins "btc-usd").2 = .ok () :=
  accepted_iff.mpr ⟨by decide +kernel, by decide +kernel⟩

theorem ethereum_never_inverse : ¬ ethereum.Inverse coins "btc-usd" :=
  never_inverse coins_sound ethereum "btc-usd" ethereum_accepts

theorem ethereum_subscribed_twice : ¬ ∀ (reg : Registry), reg.Sound →
    ∀ (settings : Settings) (symbol : String),
      ((create settings).subscribeInstrument reg symbol).2 = .ok () →
        (create settings).Inverse reg symbol := by
  intro always
  have inverse := always coins coins_sound ⟨" eth-usd,", "l2_data"⟩ "btc-usd" ethereum_accepts
  apply (inverse "BTC/USD" (by decide +kernel)).rejected
  exact accepted_iff.mpr ⟨by decide +kernel, by decide +kernel⟩

structure Listable (reg : Registry) : Prop where
  empty : reg.symbol Currency.none = ""
  clean : ∀ symbol value, reg.strToVal.lookup symbol = some value →
    Clean ',' isSpace symbol.toList

theorem Listable.clean_symbol (listable : Listable reg) (sound : reg.Sound) (c : Currency) :
    Clean ',' isSpace (reg.symbol c).toList := by
  unfold Registry.symbol
  cases text : reg.valToStr c with
  | none => exact Clean.nil
  | some symbol => exact listable.clean symbol c ((sound.bijective symbol c).mpr text)

theorem Listable.clean_currency (listable : Listable reg) {sv : List Char}
    (known : reg.currency sv ≠ Currency.invalid) : Clean ',' isSpace sv := by
  unfold Registry.currency at known
  split at known
  next value found => simpa using listable.clean _ value found
  next =>
    split at known
    next empty =>
      rw [List.isEmpty_iff.mp empty]
      exact Clean.nil
    next => exact absurd rfl known

theorem known_of_readable {cp : CurrencyPair} (readable : ¬ cp.Invalid) :
    cp.baseCCY ≠ Currency.invalid ∧ cp.quoteCCY ≠ Currency.invalid := by
  have different : Currency.invalid ≠ Currency.none := by decide
  constructor
  · intro invalid
    exact readable ⟨fun empty => different (invalid.symm.trans empty.1),
      fun valid => valid.1.2 invalid⟩
  · intro invalid
    exact readable ⟨fun empty => different (invalid.symm.trans empty.2),
      fun valid => valid.2.2 invalid⟩

theorem Listable.clean_readable (listable : Listable reg) {sv : List Char}
    (readable : ¬ (reg.parse sv).Invalid) : Clean ',' isSpace sv := by
  have known := known_of_readable readable
  rcases reg.parse_parts sv with rfl | ⟨base, quote, read, spelled⟩ | invalid
  · exact Clean.nil
  · rw [read] at known
    have first := listable.clean_currency known.1
    have second := listable.clean_currency known.2
    rcases spelled with rfl | rfl | rfl
    · exact first.append second
    · exact first.append (second.cons (by decide))
    · exact first.append (second.cons (by decide))
  · rw [invalid] at known
    exact absurd rfl known.1

theorem Listable.clean_toupper (listable : Listable reg) {symbol : String}
    (readable : ¬ (instrument reg symbol).Invalid) : Clean ',' isSpace (toupper symbol).toList := by
  unfold instrument Registry.getCurrencyPair at readable
  have translated := listable.clean_readable readable
  intro c member
  by_cases dash : c = '-'
  · subst dash
    decide
  · apply translated
    rw [translateSymbol, String.toList_ofList, List.mem_filter]
    exact ⟨member, decide_eq_true dash⟩

theorem Listable.symbol_currency_symbol (listable : Listable reg) (sound : reg.Sound)
    (c : Currency) : reg.symbol (reg.currency (reg.symbol c).toList) = reg.symbol c := by
  unfold Registry.currency
  rw [String.ofList_toList]
  cases found : reg.strToVal.lookup (reg.symbol c) with
  | some value =>
      exact sound.consistent.symbol_eq found
  | none =>
      have unnamed : reg.symbol c = "" := by
        cases text : reg.valToStr c with
        | none => rw [Registry.symbol, text, Option.getD_none]
        | some symbol =>
            have listed := (sound.bijective symbol c).mpr text
            rw [sound.consistent.symbol_eq listed, listed] at found
            cases found
      rw [unnamed]
      exact listable.empty

theorem Listable.exchangeName_exchangeName (listable : Listable reg) (sound : reg.Sound)
    (symbol : String) : exchangeName reg (exchangeName reg symbol) = exchangeName reg symbol := by
  unfold exchangeName
  generalize reg.parse symbol.toList = cp
  have base := sound.symbol_plain cp.baseCCY
  have quote := sound.symbol_plain cp.quoteCCY
  rw [Registry.toList_exchangeSpecific, sound.parse_dash base.1 base.2 quote.2]
  unfold Registry.translateSymbolToExchangeSpecific
  rw [listable.symbol_currency_symbol sound, listable.symbol_currency_symbol sound]

theorem Listable.clean_exchangeName (listable : Listable reg) (sound : reg.Sound)
    (symbol : String) : Clean ',' isSpace (exchangeName reg symbol).toList := by
  unfold exchangeName
  rw [Registry.toList_exchangeSpecific]
  exact (listable.clean_symbol sound _).append ((listable.clean_symbol sound _).cons (by decide))

theorem getInstruments_subscribeInstrument (listable : Listable reg) {symbol : String}
    (accepted : (s.subscribeInstrument reg symbol).2 = .ok ()) :
    (s.subscribeInstrument reg symbol).1.getInstruments reg =
      if toupper symbol = "" then s.getInstruments reg
      else insert (exchangeName reg (toupper symbol)) (s.getInstruments reg) := by
  obtain ⟨readable, missing⟩ := accepted_iff.mp accepted
  have clean := listable.clean_toupper readable
  unfold instrument at readable
  unfold subscribeInstrument
  dsimp only
  rw [if_neg readable, if_neg missing, subscribe, getInstruments_congr (foldl_send _ _ _)]
  unfold getInstruments configure stringTokenizer
  dsimp only
  rw [String.toList_ofList, tokens_extend, clean.tokens_eq]
  split_ifs with empty empty' empty'
  · simp
  · exact absurd (String.toList_eq_nil_iff.mp empty) empty'
  · rw [empty'] at empty
    exact absurd rfl empty
  · ext name
    simp

theorem getInstruments_vecToStr (listable : Listable reg) (sound : reg.Sound)
    {names : Finset String} (spelled : ∀ name ∈ names, ∃ symbol, exchangeName reg symbol = name) :
    (s.configure (vecToStr names.sort)).getInstruments reg = names := by
  have clean : ∀ item ∈ names.sort.map String.toList, Clean ',' isSpace item ∧ item ≠ [] := by
    intro item member
    obtain ⟨name, listed, rfl⟩ := List.mem_map.mp member
    obtain ⟨symbol, rfl⟩ := spelled name ((Finset.mem_sort _).mp listed)
    refine ⟨listable.clean_exchangeName sound symbol, fun empty => ?_⟩
    rw [exchangeName, Registry.toList_exchangeSpecific] at empty
    simp at empty
  have same : ∀ name ∈ names.sort, exchangeName reg name = name := by
    intro name listed
    obtain ⟨symbol, rfl⟩ := spelled name ((Finset.mem_sort _).mp listed)
    exact listable.exchangeName_exchangeName sound symbol
  have read : stringTokenizer (vecToStr names.sort) = names.sort := by
    unfold stringTokenizer vecToStr
    rw [String.toList_ofList, tokens_join _ clean, List.map_map]
    simp
  unfold getInstruments configure
  dsimp only
  rw [read, List.map_congr_left same, List.map_id', Finset.sort_toFinset]

theorem getInstruments_unsubscribeInstrument (listable : Listable reg) (sound : reg.Sound)
    {symbol : String} (there : toupper symbol ∈ s.getInstruments reg) :
    (s.unsubscribeInstrument reg symbol).1.getInstruments reg =
      (s.getInstruments reg).erase (toupper symbol) := by
  have spelled : ∀ name ∈ (s.getInstruments reg).erase (toupper symbol),
      ∃ symbol, exchangeName reg symbol = name := by
    intro name member
    obtain ⟨tok, -, same⟩ :=
      List.mem_map.mp (List.mem_toFinset.mp (Finset.mem_of_mem_erase member))
    exact ⟨tok, same⟩
  have written : (if (s.getInstruments reg).erase (toupper symbol) = ∅ then ""
      else vecToStr ((s.getInstruments reg).erase (toupper symbol)).sort) =
      vecToStr ((s.getInstruments reg).erase (toupper symbol)).sort := by
    split_ifs with empty
    · rw [empty, Finset.sort_empty]
      rfl
    · rfl
  unfold unsubscribeInstrument
  dsimp only
  rw [if_neg (not_not.mpr there), written, unsubscribe, getInstruments_congr (foldl_send _ _ _)]
  exact getInstruments_vecToStr listable sound spelled

theorem unsubscribed_iff {symbol : String} : (s.unsubscribeInstrument reg symbol).2 = .ok () ↔
    toupper symbol ∈ s.getInstruments reg := by
  unfold unsubscribeInstrument
  dsimp only
  split
  next missing => simp [missing]
  next there => simpa using there

theorem inverseAs_iff (listable : Listable reg) (sound : reg.Sound) {symbol : String}
    (accepted : (s.subscribeInstrument reg symbol).2 = .ok ()) (symbol' : String) :
    s.InverseAs reg symbol symbol' ↔ toupper symbol ≠ "" ∧
      toupper symbol' = exchangeName reg (toupper symbol) ∧
      toupper symbol' ∉ s.getInstruments reg := by
  have after := getInstruments_subscribeInstrument listable accepted
  constructor
  · rintro ⟨-, succeeds, restored⟩
    have there := unsubscribed_iff.mp succeeds
    rw [getInstruments_unsubscribeInstrument listable sound there] at restored
    have missing : toupper symbol' ∉ s.getInstruments reg := by
      rw [← restored]
      exact Finset.notMem_erase _ _
    rw [after] at there
    split_ifs at there with empty
    · exact absurd there missing
    · refine ⟨empty, ?_, missing⟩
      exact (Finset.mem_insert.mp there).resolve_right missing
  · rintro ⟨nonempty, same, missing⟩
    rw [if_neg nonempty, ← same] at after
    have there : toupper symbol' ∈
        (s.subscribeInstrument reg symbol).1.getInstruments reg := by
      rw [after]
      exact Finset.mem_insert_self _ _
    refine ⟨fun again => (accepted_iff.mp again).2 there, unsubscribed_iff.mpr there, ?_⟩
    rw [getInstruments_unsubscribeInstrument listable sound there, after,
      Finset.erase_insert missing]

example : ethereum.InverseAs coins "btc-usd" "BTC-USD" := by
  have listable : Listable coins := by
    refine ⟨by decide, fun symbol value found => ?_⟩
    have text := coins_consistent.mirrored symbol value found
    simp only [coins] at text
    split_ifs at text <;> obtain rfl := Option.some.inj text <;>
      simp [Clean, isSpace]
  exact (inverseAs_iff listable coins_sound ethereum_accepts _).mpr (by decide +kernel)

end Subscriptions

end SpotGridBot.Coinbase
