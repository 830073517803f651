import SpotGridBot.Utils.CurrencyPair

namespace SpotGridBot.Utils

inductive Side where
  | buy
  | sell
  | invalid
deriving DecidableEq, Repr

def Side.reverse : Side → Side
  | .buy => .sell
  | .sell => .buy
  | .invalid => .invalid

/-- Any `char` other than the two of a valid quote type behaves as `INVALID`. -/
inductive QuoteType where
  | bid
  | offer
  | invalid
deriving DecidableEq, Repr

namespace QuoteType

def ofChar (value : Char) : QuoteType :=
  if value = '0' then bid else if value = '1' then offer else invalid

def Bid (type : QuoteType) : Bool := type == bid
def Valid (type : QuoteType) : Bool := type == bid || type == offer

end QuoteType

structure BidAskPair (α : Type*) where
  bid : α
  ask : α
deriving DecidableEq, Repr

namespace BidAskPair
variable {α : Type*}

def get (pair : BidAskPair α) (bid : Bool) : α := if bid then pair.bid else pair.ask

def set (pair : BidAskPair α) (bid : Bool) (value : α) : BidAskPair α :=
  if bid then { pair with bid := value } else { pair with ask := value }

@[simp] theorem get_set_same (pair : BidAskPair α) (bid : Bool) (value : α) :
    (pair.set bid value).get bid = value := by
  cases bid <;> rfl

@[simp] theorem get_set_other (pair : BidAskPair α) {bid bid' : Bool} (value : α)
    (other : bid' ≠ bid) : (pair.set bid value).get bid' = pair.get bid' := by
  cases bid <;> cases bid' <;> first | rfl | exact absurd rfl other

end BidAskPair

def currentTimestamp : ℤ := 0

/-- `NewInt64Key()`, from the last key it gave. -/
def newInt64Key (lastKey : ℤ) : ℤ :=
  if currentTimestamp ≤ lastKey then lastKey + 1 else currentTimestamp

def qtNew : ℤ := 0
def qtUpdate : ℤ := 1
def qtDelete : ℤ := 2

def ordStatusNotSent : Char := '\x00'
def ordStatusNew : Char := '0'
def ordStatusPartiallyFilled : Char := '1'
def ordStatusFilled : Char := '2'
def ordStatusCanceled : Char := '4'
def ordStatusRejected : Char := '8'
def ordStatusExpired : Char := 'C'

def execTypeNone : Char := '\x00'
def execTypeNew : Char := '0'
def execTypePartialFill : Char := '1'
def execTypeFill : Char := '2'
def execTypeCanceled : Char := '4'
def execTypeRejected : Char := '8'
def execTypeExpired : Char := 'C'

structure Entry where
  id : String := ""
  refId : String := ""
  quoteId : String := ""
  settlDate : String := ""
  updateType : ℤ := 0
  positionNo : ℤ := 0
  entryType : QuoteType := .invalid
  instrument : CurrencyPair := ⟨Currency.none, Currency.none⟩
  price : ℚ := 0
  volume : ℚ := 0
  minQty : ℚ := 0
  originators : String := ""
  adptReceiveTime : ℤ := 0
  endOfMessage : Bool := false
deriving DecidableEq, Repr

end SpotGridBot.Utils
