import SpotGridBot.Feed.ActiveQuoteTable
import SpotGridBot.Book.OrderBook
import SpotGridBot.Lib.Outcome

/-!
# Publishing quotes

The market-data connection, its table of active quotes and the book it feeds. The callback of the
book is taken to return.
-/

namespace SpotGridBot.Feed
open Utils Book

structure Level where
  price : String
  size : String
deriving DecidableEq, Repr

def Level.Numeric (level : Level) : Prop :=
  (stod level.price).isSome = true ∧ (stod level.size).isSome = true

instance (level : Level) : Decidable level.Numeric :=
  inferInstanceAs (Decidable ((stod level.price).isSome = true ∧ (stod level.size).isSome = true))

def generateStandardEntryId (reg : Registry) (cp : CurrencyPair) (entryType : QuoteType)
    (price : String) : String :=
  reg.toString cp ++ "_" ++ (if entryType.Bid then "B" else "A") ++ price

/-- One turn of the loop of `ParseQuote`; `none` when a numeral does not parse. -/
def parseLevel (reg : Registry) (side : Char) (instrument : String) (level : Level) :
    Option Entry := do
  let entryType := QuoteType.ofChar side
  let cp := reg.getCurrencyPair instrument
  let price ← stod level.price
  let volume ← stod level.size
  let id := generateStandardEntryId reg cp entryType level.price
  pure
    { id := id
      refId := id
      quoteId := ""
      updateType := if volume = 0 then qtDelete else qtNew
      positionNo := 0
      entryType := entryType
      instrument := cp
      price := price
      volume := volume }

def parseQuote (reg : Registry) (levels : List Level) (side : Char) (instrument : String) :
    Option (List Entry) :=
  levels.mapM (parseLevel reg side instrument)

theorem parseQuote_isSome (reg : Registry) {levels : List Level}
    (numeric : ∀ level ∈ levels, level.Numeric) (side : Char) (instrument : String) :
    ∃ entries, parseQuote reg levels side instrument = some entries := by
  induction levels with
  | nil => exact ⟨[], rfl⟩
  | cons level levels ih =>
      obtain ⟨entries, rest⟩ := ih fun level member => numeric level (List.mem_cons_of_mem _ member)
      obtain ⟨priced, sized⟩ := numeric level List.mem_cons_self
      obtain ⟨price, priced⟩ := Option.isSome_iff_exists.mp priced
      obtain ⟨volume, sized⟩ := Option.isSome_iff_exists.mp sized
      unfold parseQuote at rest ⊢
      rw [List.mapM_cons, rest]
      simp [parseLevel, priced, sized]

def coins : Registry where
  valToStr c :=
    if c = ⟨71⟩ then some "BTC" else if c = ⟨72⟩ then some "ETH"
    else if c = Currency.usd then some "USD" else none
  strToVal := [("BTC", ⟨71⟩), ("ETH", ⟨72⟩), ("USD", Currency.usd)]
  cpToPrecision _ := none

example : (parseLevel coins '0' "BTC-USD" ⟨"21921.73", "0"⟩).map (fun entry =>
    (entry.id, entry.instrument, entry.updateType)) =
      some ("BTC/USD_B21921.73", ⟨⟨71⟩, Currency.usd⟩, qtDelete) := by
  decide +kernel

structure ConnectionBaseMD where
  activeQuoteTable : ActiveQuoteTable := fun _ => none
  orderBook : OrderBook := {}
  -- The static of `NewInt64Key`, which other callers advance too.
  lastKey : ℤ := 0
  publishedQuotesCounter : ℕ := 0

inductive Turn where
  | next (s : ConnectionBaseMD)
  | quit (s : ConnectionBaseMD)

def Turn.state : Turn → ConnectionBaseMD
  | .next s => s
  | .quit s => s

namespace ConnectionBaseMD
variable (reg : Registry) (s : ConnectionBaseMD)

/-- The pair and type of an entry, looked up where the entry itself gives none; `none` skips it. -/
def resolve (entry : Entry) : Option (CurrencyPair × QuoteType) :=
  if !entry.entryType.Valid ∨ ¬ entry.instrument.Valid then
    match s.activeQuoteTable.findQuoteInfo entry.refId with
    | some info => some
        (if entry.instrument.Valid then entry.instrument else info.cp,
          if entry.entryType.Valid then entry.entryType else info.entryType)
    | none => none
  else some (entry.instrument, entry.entryType)

def publishQuote (key refKey : ℤ) (cp : CurrencyPair) (entry : Entry) : ConnectionBaseMD :=
  { s with
    orderBook := s.orderBook.addEntry reg key refKey currentTimestamp currentTimestamp cp entry
    publishedQuotesCounter := s.publishedQuotesCounter + 1 }

def publishEntry (entry : Entry) : Turn :=
  match s.resolve entry with
  | none => .next s
  | some (cp, entryType) =>
      let entry := { entry with entryType := entryType }
      let key := newInt64Key s.lastKey
      let s := { s with lastKey := key }
      let (table, replacedQuoteRef) :=
        if entry.updateType = qtDelete then s.activeQuoteTable.removeQuoteInfo entry.refId
        else s.activeQuoteTable.replaceQuoteInfo entry.refId entry.id ⟨key, cp, entry.entryType⟩
      let s := { s with activeQuoteTable := table }
      match replacedQuoteRef with
      | some replaced =>
          let updateType := if entry.updateType = qtNew then qtUpdate else entry.updateType
          .next (s.publishQuote reg key replaced.key cp { entry with updateType := updateType })
      | none =>
          if entry.updateType = qtDelete then .quit s
          else
            let updateType := if entry.updateType = qtUpdate then qtNew else entry.updateType
            .next (s.publishQuote reg key 0 cp { entry with updateType := updateType })

/-- `PublishQuotes`, with the entries it never came to. -/
def publishQuotes (s : ConnectionBaseMD) : List Entry → ConnectionBaseMD × List Entry
  | [] => (s, [])
  | entry :: entries =>
      match s.publishEntry reg { entry with endOfMessage := entries.isEmpty } with
      | .next s => publishQuotes s entries
      | .quit s => (s, entries)

section Entry
variable {reg s} {entry : Entry} {cp : CurrencyPair} {entryType : QuoteType}

theorem publishEntry_deleteUnknown (resolved : s.resolve entry = some (cp, entryType))
    (delete : entry.updateType = qtDelete)
    (unknown : s.activeQuoteTable.findQuoteInfo entry.refId = none) :
    s.publishEntry reg entry = .quit { s with lastKey := newInt64Key s.lastKey } := by
  unfold publishEntry ActiveQuoteTable.removeQuoteInfo
  simp only [resolved, delete, unknown, if_true]

theorem publishEntry_delete (resolved : s.resolve entry = some (cp, entryType))
    (delete : entry.updateType = qtDelete) {info : QuoteInfo}
    (found : s.activeQuoteTable.findQuoteInfo entry.refId = some info) :
    s.publishEntry reg entry = .next
      (publishQuote reg
        { s with
          lastKey := newInt64Key s.lastKey
          activeQuoteTable := Function.update s.activeQuoteTable entry.refId none }
        (newInt64Key s.lastKey) info.key cp { entry with entryType }) := by
  have kept : qtDelete ≠ qtNew := by decide
  unfold publishEntry ActiveQuoteTable.removeQuoteInfo
  simp only [resolved, delete, found, if_true, kept, if_false]

theorem publishEntry_new (resolved : s.resolve entry = some (cp, entryType))
    (new : entry.updateType = qtNew)
    (unknown : s.activeQuoteTable.findQuoteInfo entry.refId = none) :
    s.publishEntry reg entry = .next
      (publishQuote reg
        { s with
          lastKey := newInt64Key s.lastKey
          activeQuoteTable :=
            s.activeQuoteTable.emplace entry.id ⟨newInt64Key s.lastKey, cp, entryType⟩ }
        (newInt64Key s.lastKey) 0 cp { entry with entryType }) := by
  have kept : qtNew ≠ qtDelete := by decide
  have kept' : qtNew ≠ qtUpdate := by decide
  unfold publishEntry ActiveQuoteTable.replaceQuoteInfo
  simp only [resolved, new, unknown, kept, kept', if_false]

theorem publishEntry_replace (resolved : s.resolve entry = some (cp, entryType))
    (new : entry.updateType = qtNew) (sameId : entry.id = entry.refId) {info : QuoteInfo}
    (found : s.activeQuoteTable.findQuoteInfo entry.refId = some info) :
    s.publishEntry reg entry = .next
      (publishQuote reg
        { s with
          lastKey := newInt64Key s.lastKey
          activeQuoteTable := Function.update s.activeQuoteTable entry.refId
            (some ⟨newInt64Key s.lastKey, cp, entryType⟩) }
        (newInt64Key s.lastKey) info.key cp { entry with entryType, updateType := qtUpdate }) := by
  have kept : qtNew ≠ qtDelete := by decide
  unfold publishEntry ActiveQuoteTable.replaceQuoteInfo
  simp only [resolved, new, found, sameId, kept, if_false, if_true, ne_eq, not_true_eq_false]

end Entry

theorem publishQuotes_singleton (entry : Entry) :
    (s.publishQuotes reg [entry]).1 = (s.publishEntry reg entry).state := by
  have same : s.publishEntry reg { entry with endOfMessage := true } = s.publishEntry reg entry :=
    rfl
  simp only [publishQuotes, List.isEmpty_nil, same]
  cases s.publishEntry reg entry with
  | _ => rfl

theorem publishQuotes_cons (entry : Entry) (entries : List Entry) :
    s.publishQuotes reg (entry :: entries) = match s.publishEntry reg entry with
    | .next s => s.publishQuotes reg entries
    | .quit s => (s, entries) := by
  rw [publishQuotes]
  rfl

/-- `PublishQuotes(ParseQuote(levels, side, instrument))`; `none` is what `ParseQuote` throws. -/
def publishLevels (levels : List Level) (side : Char) (instrument : String) :
    Option ConnectionBaseMD :=
  (parseQuote reg levels side instrument).map fun entries => (s.publishQuotes reg entries).1

theorem publishLevels_isSome {levels : List Level} (numeric : ∀ level ∈ levels, level.Numeric)
    (side : Char) (instrument : String) :
    ∃ s', s.publishLevels reg levels side instrument = some s' := by
  obtain ⟨entries, parsed⟩ := parseQuote_isSome reg numeric side instrument
  exact ⟨_, by rw [publishLevels, parsed, Option.map_some]⟩

def publishSides (bids asks : List Level) (instrument : String) : Outcome ConnectionBaseMD :=
  match s.publishLevels reg bids '0' instrument with
  | none => .thrown s
  | some s =>
      match s.publishLevels reg asks '1' instrument with
      | none => .thrown s
      | some s => .done s

theorem publishSides_done {bids asks : List Level}
    (numeric : ∀ level ∈ bids ++ asks, level.Numeric) (instrument : String) :
    ∃ s', s.publishSides reg bids asks instrument = .done s' := by
  obtain ⟨s₁, first⟩ := s.publishLevels_isSome reg
    (fun level member => numeric level (List.mem_append_left _ member)) '0' instrument
  obtain ⟨s₂, second⟩ := s₁.publishLevels_isSome reg
    (fun level member => numeric level (List.mem_append_right _ member)) '1' instrument
  exact ⟨s₂, by rw [publishSides, first]; simp [second]⟩

end ConnectionBaseMD

end SpotGridBot.Feed
