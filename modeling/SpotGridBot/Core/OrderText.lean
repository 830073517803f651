import SpotGridBot.Core.JSONMessage
import SpotGridBot.Lib.JsonWriting
import SpotGridBot.Lib.Keyed
import SpotGridBot.Utils.Decimals

namespace SpotGridBot.Utils

namespace Currency

def jpy : Currency := ⟨5⟩
def rub : Currency := ⟨17⟩
def czk : Currency := ⟨24⟩
def huf : Currency := ⟨26⟩
def ron : Currency := ⟨30⟩
def xau : Currency := ⟨35⟩

end Currency

def Registry.precision (reg : Registry) (cp : CurrencyPair) : ℤ :=
  if cp.Valid then
    match reg.cpToPrecision cp with
    | some precision => precision.1
    | none =>
        if cp.baseCCY = Currency.xau then 2
        else if cp.quoteCCY = Currency.jpy ∨ cp.quoteCCY = Currency.huf then 3
        else if cp.quoteCCY = Currency.czk ∨ cp.quoteCCY = Currency.rub ∨
            cp.quoteCCY = Currency.ron then 4
        else 5
  else 0

/-- A stream to which a negative precision is given prints the default of six decimals. -/
def decimals (precision : ℤ) : ℕ := if precision < 0 then 6 else precision.toNat

/-- `to_string_with_precision`; without a precision it prints what `std::to_string` prints. -/
def toStringWithPrecision (value : ℚ) (n : ℤ := 6) : String := format (decimals n) value

def kept (value : ℚ) (n : ℤ := 6) : ℚ := (printed (decimals n) value).value

structure Rounded (read value : ℚ) (n : ℤ) : Prop where
  near : |read - value| ≤ 1 / 2 / 10 ^ decimals n
  exact_iff : read = value ↔ ∃ units : ℕ, |value| * 10 ^ decimals n = units

theorem rounded_kept (value : ℚ) (n : ℤ) : Rounded (kept value n) value n :=
  ⟨printed_near (decimals n) value, printed_exact_iff (decimals n) value⟩

def ReadsNumerals (toDouble : String → Option ℚ) : Prop :=
  ∀ x : Numeral, toDouble (String.ofList x.text) = some x.value

theorem stod_readsNumerals : ReadsNumerals stod := fun x => Numeral.stod_text x

theorem ReadsNumerals.printed {toDouble : String → Option ℚ} (reads : ReadsNumerals toDouble)
    (value : ℚ) (n : ℤ) : toDouble (toStringWithPrecision value n) = some (kept value n) :=
  reads (Utils.printed (decimals n) value)

end SpotGridBot.Utils

namespace SpotGridBot.Core
open Utils JsonText

theorem plain_digit {c : Char} (digit : c.isDigit = true) : Plain c := by
  have range := Char.isDigit_iff_toNat.mp digit
  have low : '0'.toNat = 48 := rfl
  exact ⟨Numeral.digit_ne digit (by decide), Numeral.digit_ne digit (by decide), by omega⟩

theorem chars_of_all {p : Char → Prop} [DecidablePred p] {chars : List Char}
    (all : chars.all (fun c => decide (p c)) = true) : ∀ c ∈ chars, p c :=
  fun c member => of_decide_eq_true (List.all_eq_true.mp all c member)

theorem numeral_chars {p : Char → Prop} (digit : ∀ c, c.isDigit = true → p c) (point : p '.')
    (minus : p '-') (x : Numeral) : ∀ c ∈ x.text, p c := by
  have digits : ∀ c ∈ x.digits, p c := by
    intro c member
    rcases List.mem_append.mp member with whole | rest
    · exact digit c (x.wholeDigits c whole)
    · split at rest
      · cases rest
      · rcases List.mem_cons.mp rest with rfl | fraction
        · exact point
        · exact digit c (x.fractionDigits c fraction)
  unfold Numeral.text
  cases x.negative with
  | true => exact List.forall_mem_cons.mpr ⟨minus, digits⟩
  | false => exact digits

theorem printed_chars {p : Char → Prop} (digit : ∀ c, c.isDigit = true → p c) (point : p '.')
    (minus : p '-') (value : ℚ) (n : ℤ) : ∀ c ∈ (toStringWithPrecision value n).toList, p c := by
  rw [toStringWithPrecision, Utils.format, String.toList_ofList]
  exact numeral_chars digit point minus _

theorem plain_printed (value : ℚ) (n : ℤ) :
    ∀ c ∈ (toStringWithPrecision value n).toList, Plain c :=
  printed_chars (fun _ => plain_digit) (by decide) (by decide) value n

inductive EOrderType where
  | market
  | limit
deriving DecidableEq, Repr

structure OrderRequest where
  instrument : CurrencyPair
  side : Side
  orderType : EOrderType
  timeInForce : TimeInForce
  price : ℚ
  quantity : ℚ
  clientOrderId : String := ""

namespace OrderRequest

def isMarketOrder (o : OrderRequest) : Bool := o.orderType = .market ∨ o.price = 0

structure ReadsBack (o : OrderRequest) (precision : ℤ) (reported : OrderRequest) : Prop where
  instrument : reported.instrument = o.instrument
  side : reported.side = if o.side = .buy then .buy else .sell
  quantity : Rounded reported.quantity o.quantity 6
  price : o.isMarketOrder = false → Rounded reported.price o.price precision
  clientOrderId : o.clientOrderId ≠ "" → reported.clientOrderId = o.clientOrderId

end OrderRequest

def ExecutionReportData.order (report : ExecutionReportData) : OrderRequest where
  instrument := report.instrument
  side := report.side
  orderType :=
    match report.ordType with
    | .market => .market
    | .limit => .limit
  timeInForce := report.tif
  price := report.orderPx
  quantity := report.orderQty
  clientOrderId := report.clOrdID

structure Listed (reg : Registry) (cp : CurrencyPair) (base quote : String) : Prop where
  sound : reg.Sound
  base : reg.valToStr cp.baseCCY = some base
  quote : reg.valToStr cp.quoteCCY = some quote
  valid : cp.Valid
  distinct : cp.baseCCY ≠ cp.quoteCCY

section Listed
variable {reg : Registry} {cp : CurrencyPair} {base quote : String}

theorem Listed.readsBack (listed : Listed reg cp base quote) : reg.ReadsBack cp base quote :=
  listed.sound.readsBack listed.base listed.quote listed.valid listed.distinct

theorem Listed.symbols (listed : Listed reg cp base quote) :
    reg.symbol cp.baseCCY = base ∧ reg.symbol cp.quoteCCY = quote := by
  constructor
  · rw [Registry.symbol, listed.base, Option.getD_some]
  · rw [Registry.symbol, listed.quote, Option.getD_some]

theorem Listed.plain_dashed (listed : Listed reg cp base quote) (plain : ∀ c ∈ base.toList, Plain c)
    (plain' : ∀ c ∈ quote.toList, Plain c) :
    ∀ c ∈ (reg.translateSymbolToExchangeSpecific cp).toList, Plain c := by
  rw [Registry.toList_exchangeSpecific, listed.symbols.1, listed.symbols.2]
  exact List.forall_mem_append.mpr ⟨plain, List.forall_mem_cons.mpr ⟨by decide, plain'⟩⟩

end Listed

theorem majors_listed :
    Listed Registry.majors ⟨Currency.eur, Currency.usd⟩ "EUR" "USD" :=
  ⟨Registry.majors_sound, rfl, rfl, by decide, by decide⟩

def euroOrder : OrderRequest where
  instrument := ⟨Currency.eur, Currency.usd⟩
  side := .buy
  orderType := .limit
  timeInForce := .gtc
  price := 12345678 / 10000000
  quantity := 2 / 3
  clientOrderId := "grid-1"

def Members.Repeats (answer asked : Members) : Prop :=
  ∀ name value, asked.lookup name = some value → answer.lookup name = some value

theorem Members.Repeats.cons {answer asked : Members} (repeats : answer.Repeats asked)
    {name : String} (own : asked.lookup name = none) (value : Json) :
    Members.Repeats ((name, value) :: answer) asked := by
  intro name' value' found
  rw [List.lookup_cons]
  have other : (name' == name) = false := by
    apply beq_false_of_ne
    rintro rfl
    rw [own] at found
    cases found
  rw [other]
  exact repeats name' value' found

abbrev Texts := List (String × String)

namespace Texts

def chars (texts : Texts) : List (List Char × List Char) :=
  texts.map fun text => (text.1.toList, text.2.toList)

def Made (inName inText : Char → Prop) (texts : Texts) : Prop :=
  ∀ text ∈ texts, (∀ c ∈ text.1.toList, inName c) ∧ ∀ c ∈ text.2.toList, inText c

section Made
variable {inName inText : Char → Prop} {texts texts' : Texts}

theorem Made.nil : Made inName inText [] := fun _ member => absurd member List.not_mem_nil

theorem Made.cons {name text : String} (ofName : ∀ c ∈ name.toList, inName c)
    (ofText : ∀ c ∈ text.toList, inText c) (rest : texts.Made inName inText) :
    Made inName inText ((name, text) :: texts) :=
  List.forall_mem_cons.mpr ⟨⟨ofName, ofText⟩, rest⟩

theorem Made.append (first : texts.Made inName inText) (second : texts'.Made inName inText) :
    Made inName inText (texts ++ texts') :=
  List.forall_mem_append.mpr ⟨first, second⟩

theorem Made.ite {p : Prop} [Decidable p] (first : texts.Made inName inText)
    (second : texts'.Made inName inText) : Made inName inText (if p then texts else texts') := by
  split
  · exact first
  · exact second

end Made

def document (texts : Texts) : Members :=
  texts.foldl (fun set text => Members.set set text.1 (.scalar text.2)) []

theorem lookup_set (members : Members) (name name' : String) (value : Json) :
    (Members.set members name value).lookup name' =
      if name' = name then some value else members.lookup name' := by
  have kept : ∀ members : Members, name' ≠ name →
      (members.filter (·.1 ≠ name)).lookup name' = members.lookup name' := by
    intro members other
    induction members with
    | nil => rfl
    | cons m members ih =>
        by_cases here : m.1 = name
        · have missed : (name' == m.1) = false := by
            rw [here]
            exact beq_false_of_ne other
          rw [List.filter_cons_of_neg (by simpa using here), ih, List.lookup_cons, missed]
        · rw [List.filter_cons_of_pos (by simpa using here), List.lookup_cons, List.lookup_cons, ih]
  unfold Members.set
  rw [List.lookup_cons]
  by_cases same : name' = name
  · rw [if_pos same, same, beq_self_eq_true]
  · rw [if_neg same, beq_false_of_ne same]
    exact kept members same

theorem lookup_document (texts : Texts) (name : String) :
    texts.document.lookup name = (texts.reverse.lookup name).map .scalar := by
  induction texts using List.reverseRecOn with
  | nil => rfl
  | append_singleton texts text ih =>
      unfold document at ih ⊢
      rw [List.foldl_append, List.foldl_cons, List.foldl_nil, lookup_set, ih, List.reverse_append,
        List.reverse_singleton, List.singleton_append, List.lookup_cons]
      by_cases same : name = text.1
      · rw [if_pos same, same, beq_self_eq_true]
        rfl
      · rw [if_neg same, beq_false_of_ne same]

theorem lookup_of_mem {texts : Texts} (distinct : (texts.map Prod.fst).Nodup) {name text : String}
    (member : (name, text) ∈ texts) : texts.document.lookup name = some (.scalar text) := by
  have backward : (texts.reverse.map Prod.fst).Nodup := by
    rw [List.map_reverse]
    exact List.nodup_reverse.mpr distinct
  rw [lookup_document, Keyed.lookup_of_mem backward (List.mem_reverse.mpr member)]
  rfl

theorem foldl_chars (numberText : List Char → String) (texts : Texts) :
    (texts.chars.map fun m => (m.1, (jsonReader numberText).string m.2)).foldl
        (fun set m => Members.set set (String.ofList m.1) m.2) [] = texts.document := by
  simp only [chars, document, List.map_map, List.foldl_map, Function.comp_apply, jsonReader,
    String.ofList_toList]

theorem parse_objectText (numberText : List Char → String) {texts : Texts}
    (plain : texts.Made Plain Plain) {body : String} (text : body.toList = objectText texts.chars) :
    JSONDocument.parse numberText body = some texts.document := by
  have all : JsonText.AllPlain texts.chars := by
    intro m member
    obtain ⟨text, listed, rfl⟩ := List.mem_map.mp member
    exact plain text listed
  rw [JSONDocument.parse, text, read_objectText all, Option.bind_some]
  exact congrArg some (foldl_chars numberText texts)

end Texts

end SpotGridBot.Core
