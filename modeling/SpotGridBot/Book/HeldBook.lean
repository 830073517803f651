import SpotGridBot.Book.OrderBook

/-!
# Quotes as objects

The vectors of the book hold pointers: a quote keeps the mark of its successor after it left the
book. `id` counts the quotes made, `forget` gives the book of plain quotes.
-/

namespace SpotGridBot.Book
open Utils OrderBook

structure Held where
  id : ℕ
  quote : Quote
deriving DecidableEq

structure Successor where
  sent : ℤ := 0
  received : ℤ := 0
deriving DecidableEq

abbrev HeldVec := List Held

def HeldVec.ids (vec : HeldVec) : List ℕ := vec.map Held.id

structure HeldBook where
  vectors : VectorMap Held := []
  lastQuote : Option Held := none
  actions : ℕ := 0
  -- `m_successor` of each quote.
  successor : ℕ → Successor := fun _ => {}
  made : ℕ := 0
  -- The quotes that were put into a vector; no function of the source reads it.
  entered : List ℕ := []

namespace HeldBook
variable (book : HeldBook)

def forgetPair (vectors : BidAskPair HeldVec) : BidAskPair QuoteVec :=
  ⟨vectors.bid.map Held.quote, vectors.ask.map Held.quote⟩

def forget : OrderBook where
  quoteVectorMap := book.vectors.map (Prod.map id forgetPair)
  lastQuote := book.lastQuote.map Held.quote
  actions := book.actions

def valid (id : ℕ) : Bool := (book.successor id).sent == 0

/-- The exchange of the mark succeeds, since it is zero in a valid quote. -/
def setInvalid (id : ℕ) (successor : Option Held) : HeldBook :=
  if book.valid id ∧ successor.map Held.id ≠ some id then
    let tsSent := (successor.map fun s => s.quote.sendingTime).getD currentTimestamp
    let tsReceived := (successor.map fun s => s.quote.receiptTime).getD currentTimestamp
    if tsSent ≠ 0 ∧ tsReceived ≠ 0 then
      { book with successor := Function.update book.successor id ⟨tsSent, tsReceived⟩ }
    else book
  else book

def vector (cp : CurrencyPair) (bid : Bool) : HeldVec := VectorMap.vector book.vectors cp bid

def referred (quote : Quote) (vec : HeldVec) : Option Held :=
  if quote.quoteType = qtDelete ∨ quote.quoteType = qtUpdate then
    if !vec.isEmpty ∧ quote.refKey > 0 then vec.find? fun q => q.quote.key == quote.refKey else none
  else none

def markReferred (quote : Held) (vec : HeldVec) : HeldBook :=
  match referred quote.quote vec with
  | none => book
  | some q => book.setInvalid q.id (some quote)

def addQuote (cp : CurrencyPair) (bid : Bool) (quote : Held) : HeldBook :=
  let midPrice := book.forget.getMidPrice cp
  let book := book.markReferred quote (book.vector cp bid)
  let edited := VectorMap.update Held.quote (VectorMap.withVectors book.vectors cp) cp bid quote
  let enters := if quote.quote.quoteType ≠ qtDelete then [quote.id] else []
  let book := { book with
    vectors := edited, lastQuote := some quote, entered := book.entered ++ enters }
  if midPrice ≠ book.forget.getMidPrice cp then { book with actions := book.actions + 1 } else book

/-- `QuotePool::getQuote` makes a new quote; the callers disable the object pool. -/
def getQuote (quote : Quote) : Held × HeldBook :=
  (⟨book.made, quote⟩, { book with made := book.made + 1 })

def clear : HeldBook :=
  let quotes := book.vectors.flatMap fun entry => entry.2.bid ++ entry.2.ask
  let marked := quotes.foldl (fun book q => book.setInvalid q.id none) book
  { marked with vectors := [], lastQuote := none }

end HeldBook

namespace HeldBook
variable (book : HeldBook)

section Forget
variable (cp : CurrencyPair) (bid : Bool) (quote : Held) (vec : HeldVec)

theorem forget_eraseReferred :
    (eraseReferred Held.quote quote.quote vec).map Held.quote =
      eraseReferred id quote.quote (vec.map Held.quote) := by
  unfold eraseReferred
  simp only [List.isEmpty_map, List.eraseP_map]
  split_ifs with replaces found
  · rfl
  · rfl
  · rfl

theorem forget_insertBefore :
    (Ordered.insertBefore (fun q => ahead bid quote.quote q.quote) quote vec).map Held.quote =
      Ordered.insertBefore (fun q => ahead bid quote.quote q) quote.quote
        (vec.map Held.quote) := by
  unfold Ordered.insertBefore
  rw [List.findIdx_map, List.map_insertIdx]
  rfl

theorem forget_updateVec :
    (updateVec Held.quote bid quote vec).map Held.quote =
      updateVec id bid quote.quote (vec.map Held.quote) := by
  unfold updateVec
  simp only [id_eq, ← forget_eraseReferred, List.isEmpty_map, ← forget_insertBefore]
  split_ifs with stays empty
  · rfl
  · rfl
  · rfl

theorem forget_set (vectors : BidAskPair HeldVec) :
    forgetPair (vectors.set bid (updateVec Held.quote bid quote (vectors.get bid))) =
      (forgetPair vectors).set bid
        (updateVec id bid quote.quote ((forgetPair vectors).get bid)) := by
  cases bid with
  | true => simp [forgetPair, BidAskPair.set, BidAskPair.get, forget_updateVec]
  | false => simp [forgetPair, BidAskPair.set, BidAskPair.get, forget_updateVec]

theorem forget_withVectors (map : VectorMap Held) :
    (VectorMap.withVectors map cp).map (Prod.map id forgetPair) =
      VectorMap.withVectors (map.map (Prod.map id forgetPair)) cp :=
  (OrderedMap.emplace_mapValues forgetPair map (cp, ⟨[], []⟩)).symm

theorem forget_update (map : VectorMap Held) :
    (VectorMap.update Held.quote map cp bid quote).map (Prod.map id forgetPair) =
      VectorMap.update id (map.map (Prod.map id forgetPair)) cp bid quote.quote :=
  (OrderedMap.modify_mapValues forgetPair (forget_set bid quote) map).symm

theorem setInvalid_eq (id : ℕ) (successor : Option Held) :
    book.setInvalid id successor =
      { book with successor := (book.setInvalid id successor).successor } := by
  unfold setInvalid
  split_ifs with valid
  · simp only
    split_ifs with times
    · rfl
    · rfl
  · rfl

theorem markReferred_eq :
    book.markReferred quote vec =
      { book with successor := (book.markReferred quote vec).successor } := by
  unfold markReferred
  cases referred quote.quote vec with
  | none => rfl
  | some q => exact book.setInvalid_eq q.id (some quote)

def place : HeldBook :=
  let book := book.markReferred quote (book.vector cp bid)
  { book with
    vectors := VectorMap.update Held.quote (VectorMap.withVectors book.vectors cp) cp bid quote
    lastQuote := some quote
    entered := book.entered ++ if quote.quote.quoteType ≠ qtDelete then [quote.id] else [] }

theorem addQuote_eq :
    book.addQuote cp bid quote =
      if book.forget.getMidPrice cp ≠ (book.place cp bid quote).forget.getMidPrice cp then
        { book.place cp bid quote with actions := (book.place cp bid quote).actions + 1 }
      else book.place cp bid quote := rfl

theorem vectors_place : (book.place cp bid quote).vectors =
    VectorMap.update Held.quote (VectorMap.withVectors book.vectors cp) cp bid quote := by
  unfold place
  rw [markReferred_eq]

theorem forget_place :
    (book.place cp bid quote).forget =
      { book.forget with
        quoteVectorMap := VectorMap.update id
          (VectorMap.withVectors book.forget.quoteVectorMap cp) cp bid quote.quote
        lastQuote := some quote.quote } := by
  have vectors := book.vectors_place cp bid quote
  have actions : (book.place cp bid quote).actions = book.actions := by
    unfold place
    rw [markReferred_eq]
  unfold forget
  rw [vectors, actions, forget_update, forget_withVectors]
  rfl

/-- `AddQuote` does to the book with the marks what it does to the book without them. -/
theorem forget_addQuote :
    (book.addQuote cp bid quote).forget = book.forget.addQuote cp bid quote.quote := by
  have placed := book.forget_place cp bid quote
  have vectors := congrArg OrderBook.quoteVectorMap placed
  have lastQuote := congrArg OrderBook.lastQuote placed
  have actions := congrArg OrderBook.actions placed
  rw [addQuote_eq]
  unfold OrderBook.addQuote
  simp only [← placed]
  split_ifs with moved
  · simp only [forget, OrderBook.mk.injEq]
    exact ⟨vectors, lastQuote, congrArg (· + 1) actions⟩
  · rfl

end Forget

end HeldBook

end SpotGridBot.Book
