import SpotGridBot.Feed.ConnectionBaseMD
import SpotGridBot.Utils.Registered
import SpotGridBot.Utils.Wrapping
import SpotGridBot.Lib.Runs

namespace SpotGridBot.Feed
open Utils Book Runs

def Level.priced (level : Level) : ℚ := (stod level.price).getD 0
def Level.sized (level : Level) : ℚ := (stod level.size).getD 0

structure Level.Fits (reg : Registry) (cp : CurrencyPair) (level : Level) : Prop where
  price : PlainNumeral level.price
  size : PlainNumeral level.size
  cpips : InInt64 (reg.scaledPrice cp level.priced)
  qty : InInt64 (reg.scaledQty cp level.sized)

instance (reg : Registry) (cp : CurrencyPair) (level : Level) : Decidable (level.Fits reg cp) :=
  decidable_of_iff
    ((PlainNumeral level.price ∧ PlainNumeral level.size) ∧
      InInt64 (reg.scaledPrice cp level.priced) ∧ InInt64 (reg.scaledQty cp level.sized))
    ⟨fun ⟨⟨price, size⟩, cpips, qty⟩ => ⟨price, size, cpips, qty⟩,
      fun fits => ⟨⟨fits.price, fits.size⟩, fits.cpips, fits.qty⟩⟩

structure LevelMessage (reg : Registry) where
  instrument : String
  bid : Bool
  level : Level
  valid : (reg.getCurrencyPair instrument).Valid
  numeric : level.Numeric
  plain : '_' ∉ level.price.toList

namespace LevelMessage
variable {reg : Registry} (m : LevelMessage reg)

def cp : CurrencyPair := reg.getCurrencyPair m.instrument

theorem cp_valid : m.cp.Valid := m.valid

def price : ℚ := m.level.priced
def size : ℚ := m.level.sized
def side : Char := if m.bid then '0' else '1'
def type : QuoteType := if m.bid then .bid else .offer
def id : String := generateStandardEntryId reg m.cp m.type m.level.price

def entry : Entry where
  id := m.id
  refId := m.id
  quoteId := ""
  updateType := if m.size = 0 then qtDelete else qtNew
  positionNo := 0
  entryType := m.type
  instrument := m.cp
  price := m.price
  volume := m.size

def quote (key refKey quoteType : ℤ) : Quote where
  adptReceiveTime := 0
  receiptTime := currentTimestamp
  sortTime := currentTimestamp
  quoteID := ""
  seqnum := 1
  price := reg.dblToCpip64 m.cp m.price
  volume := reg.doubleToQty64 m.cp m.size
  minQty := reg.doubleToQty64 m.cp 0
  key := key
  refKey := refKey
  sendingTime := currentTimestamp
  quoteType := quoteType
  positionNo := 0
  settlDate := ""
  originator := ""

end LevelMessage

abbrev PriceLevels := CurrencyPair → Bool → ℚ → Option ℚ

def PriceLevels.set (levels : PriceLevels) {reg : Registry} (m : LevelMessage reg) : PriceLevels :=
  fun cp bid price =>
    if m.cp = cp ∧ m.bid = bid ∧ m.price = price then
      if m.size = 0 then none else some m.size
    else levels cp bid price

inductive FeedEvent (reg : Registry) where
  | level (m : LevelMessage reg)
  -- Another caller of `NewInt64Key` takes a key.
  | newKey

def PriceLevels.receive {reg : Registry} (levels : PriceLevels) : FeedEvent reg → PriceLevels
  | .level m => levels.set m
  | .newKey => levels

def ConnectionBaseMD.receive {reg : Registry} (s : ConnectionBaseMD) :
    FeedEvent reg → ConnectionBaseMD
  | .level m => (s.publishLevels reg [m.level] m.side m.instrument).getD s
  | .newKey => { s with lastKey := newInt64Key s.lastKey }

theorem split_at_last {separator : Char} {front front' back back' : List Char}
    (last : separator ∉ back) (last' : separator ∉ back')
    (same : front ++ separator :: back = front' ++ separator :: back') :
    front = front' ∧ back = back' := by
  rcases List.append_eq_append_iff.mp same with ⟨rest, longer, tail⟩ | ⟨rest, longer, tail⟩
  · cases rest with
    | nil => exact ⟨by simpa using longer.symm, (List.cons.inj tail).2⟩
    | cons c rest => exact absurd (by simp [(List.cons.inj tail).2]) last
  · cases rest with
    | nil => exact ⟨by simpa using longer, (List.cons.inj tail).2.symm⟩
    | cons c rest => exact absurd (by simp [(List.cons.inj tail).2]) last'

theorem LevelMessage.id_injective {reg : Registry} (consistent : reg.Consistent)
    {m m' : LevelMessage reg} (same : m.id = m'.id) :
    m.cp = m'.cp ∧ m.bid = m'.bid ∧ m.level.price = m'.level.price := by
  have chars : ∀ m : LevelMessage reg, m.id.toList = (reg.toString m.cp).toList ++
      '_' :: (if m.bid then 'B' else 'A') :: m.level.price.toList := by
    intro m
    unfold LevelMessage.id generateStandardEntryId LevelMessage.type
    cases m.bid <;> simp [QuoteType.Bid]
  have plain : ∀ m : LevelMessage reg,
      '_' ∉ (if m.bid then 'B' else 'A') :: m.level.price.toList := by
    intro m member
    rcases List.mem_cons.mp member with first | later
    · cases side : m.bid <;> simp [side] at first
    · exact m.plain later
  have texts := congrArg String.toList same
  rw [chars m, chars m'] at texts
  obtain ⟨names, rest⟩ := split_at_last (plain m) (plain m') texts
  obtain ⟨sides, prices⟩ := List.cons.inj rest
  refine ⟨?_, ?_, String.toList_inj.mp prices⟩
  · exact consistent.toString_injective (reg.parse_registered _ m.valid)
      (reg.parse_registered _ m'.valid) m.valid m'.valid (String.toList_inj.mp names)
  · cases side : m.bid <;> cases side' : m'.bid <;> simp [side, side'] at sides ⊢

theorem LevelMessage.id_ne_empty {reg : Registry} (m : LevelMessage reg) : m.id ≠ "" := by
  intro empty
  have chars := congrArg String.toList empty
  simp [LevelMessage.id, generateStandardEntryId] at chars

theorem parseQuote_level {reg : Registry} (m : LevelMessage reg) :
    parseQuote reg [m.level] m.side m.instrument = some [m.entry] := by
  obtain ⟨price, priced⟩ := Option.isSome_iff_exists.mp m.numeric.1
  obtain ⟨volume, sized⟩ := Option.isSome_iff_exists.mp m.numeric.2
  have type : QuoteType.ofChar m.side = m.type := by
    unfold LevelMessage.side LevelMessage.type
    cases m.bid <;> rfl
  simp [parseQuote, parseLevel, priced, sized, type, LevelMessage.entry, LevelMessage.id,
    LevelMessage.price, LevelMessage.size, Level.priced, Level.sized, LevelMessage.cp]

section Publishing
variable {reg : Registry} (s : ConnectionBaseMD) (m : LevelMessage reg)

theorem resolve_entry : s.resolve m.entry = some (m.cp, m.type) := by
  have typed : m.type.Valid = true := by
    unfold LevelMessage.type
    cases m.bid <;> rfl
  have valid : m.cp.Valid := m.valid
  simp [ConnectionBaseMD.resolve, LevelMessage.entry, typed, valid]

theorem publishQuote_entry (key refKey updateType : ℤ) :
    s.publishQuote reg key refKey m.cp { m.entry with entryType := m.type, updateType } =
      { s with
        orderBook := s.orderBook.addQuote m.cp m.bid (m.quote key refKey updateType)
        publishedQuotesCounter := s.publishedQuotesCounter + 1 } := by
  have bid : m.type.Bid = m.bid := by
    unfold LevelMessage.type
    cases m.bid <;> rfl
  unfold ConnectionBaseMD.publishQuote OrderBook.addEntry
  rw [bid]
  rfl

def refKey : ℤ := ((s.activeQuoteTable m.id).map QuoteInfo.key).getD 0

def updateType : ℤ :=
  if m.size = 0 then qtDelete else if s.activeQuoteTable m.id = none then qtNew else qtUpdate

def edited : ConnectionBaseMD :=
  { s with
    lastKey := newInt64Key s.lastKey
    activeQuoteTable := Function.update s.activeQuoteTable m.id
      (if m.size = 0 then none else some ⟨newInt64Key s.lastKey, m.cp, m.type⟩)
    orderBook := s.orderBook.addQuote m.cp m.bid
      (m.quote (newInt64Key s.lastKey) (refKey s m) (updateType s m))
    publishedQuotesCounter := s.publishedQuotesCounter + 1 }

theorem receive_level : s.receive (.level m) =
    if m.size = 0 ∧ s.activeQuoteTable m.id = none then
      { s with lastKey := newInt64Key s.lastKey }
    else edited s m := by
  have published : s.receive (.level m) = (s.publishEntry reg m.entry).state := by
    have parsed : s.publishLevels reg [m.level] m.side m.instrument =
        some (s.publishQuotes reg [m.entry]).1 :=
      congrArg (Option.map fun entries => (s.publishQuotes reg entries).1) (parseQuote_level m)
    have received : s.receive (.level m) = (s.publishQuotes reg [m.entry]).1 :=
      congrArg (fun base => base.getD s) parsed
    exact received.trans (ConnectionBaseMD.publishQuotes_singleton reg s m.entry)
  have resolved := resolve_entry s m
  have found : s.activeQuoteTable.findQuoteInfo m.id = s.activeQuoteTable m.id :=
    if_neg m.id_ne_empty
  rw [published]
  unfold edited refKey updateType
  by_cases gone : m.size = 0
  · have delete : m.entry.updateType = qtDelete := if_pos gone
    cases old : s.activeQuoteTable m.id with
    | none =>
        rw [ConnectionBaseMD.publishEntry_deleteUnknown resolved delete (found.trans old),
          if_pos ⟨gone, rfl⟩]
        rfl
    | some info =>
        rw [ConnectionBaseMD.publishEntry_delete resolved delete (found.trans old)]
        refine (publishQuote_entry _ m _ _ m.entry.updateType).trans ?_
        simp only [gone, delete, true_and, reduceCtorEq, if_false, if_true, Option.map_some,
          Option.getD_some]
        rfl
  · have new : m.entry.updateType = qtNew := if_neg gone
    cases old : s.activeQuoteTable m.id with
    | none =>
        rw [ConnectionBaseMD.publishEntry_new resolved new (found.trans old)]
        refine (publishQuote_entry _ m _ _ m.entry.updateType).trans ?_
        have unknown : s.activeQuoteTable m.entry.id = none := old
        simp only [gone, new, false_and, if_false, if_true, Option.map_none, Option.getD_none,
          ActiveQuoteTable.emplace, unknown]
        rfl
    | some info =>
        rw [ConnectionBaseMD.publishEntry_replace resolved new rfl (found.trans old)]
        refine (publishQuote_entry _ m _ _ qtUpdate).trans ?_
        simp only [gone, false_and, if_false, reduceCtorEq, Option.map_some, Option.getD_some]
        rfl

end Publishing

end SpotGridBot.Feed
