import SpotGridBot.Utils.FixTypes
import SpotGridBot.Utils.PairOrder

/-!
# The order book

`m_quoteVectorMap` is a `std::map` in the order of `operator<`, which does not tell a half-empty pair
from others of its base currency. `AddQuote` and `Clear` are the only writers of the book.
-/

namespace SpotGridBot.Book
open Utils

/-- A `Quote`, without the mark that tells a holder of it that it was replaced. -/
structure Quote where
  adptReceiveTime : ℤ
  receiptTime : ℤ
  sortTime : ℤ
  quoteID : String
  seqnum : ℤ
  price : ℤ
  volume : ℤ
  minQty : ℤ
  key : ℤ
  refKey : ℤ
  sendingTime : ℤ
  quoteType : ℤ
  positionNo : ℤ
  settlDate : String
  originator : String
deriving DecidableEq, Repr

def Quote.of (price volume : ℤ) : Quote where
  adptReceiveTime := 0
  receiptTime := 0
  sortTime := 0
  quoteID := ""
  seqnum := 0
  price := price
  volume := volume
  minQty := 0
  key := 0
  refKey := 0
  sendingTime := 0
  quoteType := qtNew
  positionNo := 0
  settlDate := ""
  originator := ""

def ahead (bid : Bool) (quote q : Quote) : Prop :=
  if quote.price ≠ q.price then
    if bid then quote.price > q.price else quote.price < q.price
  else quote.volume ≥ q.volume

instance (bid : Bool) : DecidableRel (ahead bid) := fun quote q =>
  inferInstanceAs (Decidable (if quote.price ≠ q.price then
    if bid then quote.price > q.price else quote.price < q.price else quote.volume ≥ q.volume))

section Vectors
variable {α : Type*} (quoteOf : α → Quote)

/-- The quotes as `quoteOf` reads them: themselves, or what a pointer points to. -/
def eraseReferred (quote : Quote) (vec : List α) : List α :=
  if quote.quoteType = qtDelete ∨ quote.quoteType = qtUpdate then
    if !vec.isEmpty ∧ quote.refKey > 0 then
      vec.eraseP fun q => (quoteOf q).key == quote.refKey
    else vec
  else vec

def updateVec (bid : Bool) (quote : α) (vec : List α) : List α :=
  let vec := eraseReferred quoteOf (quoteOf quote) vec
  if (quoteOf quote).quoteType ≠ qtDelete then
    if vec.isEmpty then [quote]
    else Ordered.insertBefore (fun q => ahead bid (quoteOf quote) (quoteOf q)) quote vec
  else vec

abbrev VectorMap (α : Type*) := List (CurrencyPair × BidAskPair (List α))

namespace VectorMap
variable (map : VectorMap α) (cp : CurrencyPair)

def find : Option (BidAskPair (List α)) := (OrderedMap.find CurrencyPair.lt cp map).map Prod.snd

def vector (bid : Bool) : List α := ((find map cp).map fun vectors => vectors.get bid).getD []

def withVectors : VectorMap α := OrderedMap.emplace CurrencyPair.lt map (cp, ⟨[], []⟩)

def update (bid : Bool) (quote : α) : VectorMap α :=
  OrderedMap.modify CurrencyPair.lt cp
    (fun vectors => vectors.set bid (updateVec quoteOf bid quote (vectors.get bid))) map

theorem find_withVectors : ∃ entry : CurrencyPair × BidAskPair (List α),
    OrderedMap.find CurrencyPair.lt cp (withVectors map cp) = some entry ∧
      ∀ bid, entry.2.get bid = vector map cp bid := by
  have itself : CurrencyPair.lt (cp, (⟨[], []⟩ : BidAskPair (List α))).1
      (cp, (⟨[], []⟩ : BidAskPair (List α))).1 = false := CurrencyPair.lt_irrefl cp
  obtain ⟨entry, found, old | ⟨missing, rfl⟩⟩ := OrderedMap.find_emplace_self itself
  · refine ⟨entry, found, fun bid => ?_⟩
    unfold vector find
    rw [old]
    rfl
  · refine ⟨_, found, fun bid => ?_⟩
    unfold vector find
    rw [missing]
    cases bid <;> rfl

end VectorMap

end Vectors

abbrev QuoteVec := List Quote

structure OrderBook where
  quoteVectorMap : VectorMap Quote := []
  lastQuote : Option Quote := none
  actions : ℕ := 0
deriving DecidableEq

def entryQuote (reg : Registry) (key refKey sendTime receiveTime : ℤ) (cp : CurrencyPair)
    (entry : Entry) : Quote where
  adptReceiveTime := entry.adptReceiveTime
  receiptTime := receiveTime
  sortTime := currentTimestamp
  quoteID := entry.quoteId
  seqnum := 1
  price := reg.dblToCpip64 cp entry.price
  volume := reg.doubleToQty64 cp entry.volume
  minQty := reg.doubleToQty64 cp entry.minQty
  key := key
  refKey := refKey
  sendingTime := sendTime
  quoteType := entry.updateType
  positionNo := entry.positionNo
  settlDate := entry.settlDate
  originator := entry.originators

namespace OrderBook
variable (book : OrderBook)

def find (cp : CurrencyPair) : Option (BidAskPair QuoteVec) := VectorMap.find book.quoteVectorMap cp

def getBestQuotes (cp : CurrencyPair) (acceptPredicate : Bool → Quote → Bool) :
    BidAskPair (Option Quote) :=
  match book.find cp with
  | none => ⟨none, none⟩
  | some vectors =>
      let best (bid : Bool) : Option Quote :=
        (vectors.get bid).find? fun q => 0 < q.price && acceptPredicate bid q
      ⟨best true, best false⟩

def getBestPrices (cp : CurrencyPair) (acceptPredicate : Bool → Quote → Bool) : BidAskPair ℤ :=
  let bestQuotes := book.getBestQuotes cp acceptPredicate
  ⟨(bestQuotes.bid.map Quote.price).getD 0, (bestQuotes.ask.map Quote.price).getD 0⟩

def getMidPrice (cp : CurrencyPair) : ℤ :=
  let bestPrices := book.getBestPrices cp fun _ _ => true
  if 0 < bestPrices.bid ∧ 0 < bestPrices.ask then (bestPrices.bid + bestPrices.ask) / 2 else 0

def addQuote (cp : CurrencyPair) (bid : Bool) (quote : Quote) : OrderBook :=
  let midPrice := book.getMidPrice cp
  let edited := VectorMap.update id (VectorMap.withVectors book.quoteVectorMap cp) cp bid quote
  let book := { book with quoteVectorMap := edited, lastQuote := some quote }
  if midPrice ≠ book.getMidPrice cp then { book with actions := book.actions + 1 } else book

def clear : OrderBook := { book with quoteVectorMap := [], lastQuote := none }

def addEntry (reg : Registry) (key refKey sendTime receiveTime : ℤ) (cp : CurrencyPair)
    (entry : Entry) : OrderBook :=
  book.addQuote cp entry.entryType.Bid (entryQuote reg key refKey sendTime receiveTime cp entry)

def quotes (cp : CurrencyPair) (bid : Bool) : QuoteVec :=
  VectorMap.vector book.quoteVectorMap cp bid

/-- The template `GetBestQuote`; nothing in its body names the predicate. -/
def getBestQuote (cp : CurrencyPair) (bid : Bool) (_acceptPredicate : Bool → Quote → Bool) :
    Option Quote :=
  match book.find cp with
  | none => none
  | some vectors => (vectors.get bid).find? fun q => 0 < q.price

def getBestPrice (cp : CurrencyPair) (bid : Bool) (acceptPredicate : Bool → Quote → Bool) : ℤ :=
  ((book.getBestQuote cp bid acceptPredicate).map Quote.price).getD 0

end OrderBook

end SpotGridBot.Book
