import SpotGridBot.Core.GetOrder
import SpotGridBot.Utils.Symbols

namespace SpotGridBot.Core
open Utils

def ordStatusNameNew : String := "NEW"
def ordStatusNamePartiallyFilled : String := "PARTIALLY_FILLED"
def ordStatusNameFilled : String := "FILLED"
def ordStatusNameCanceled : String := "CANCELED"
def ordStatusNameRejected : String := "REJECTED"
def ordStatusNameExpired : String := "EXPIRED"

inductive OrdType where
  | market
  | limit
deriving DecidableEq, Repr

inductive TimeInForce where
  | day
  | gtc
  | opg
  | ioc
  | fok
  | gtx
  | gtd
  | cls
  | invalid
deriving DecidableEq, Repr

def TimeInForce.ofString (str : String) : TimeInForce :=
  if str = "DAY" then day
  else if str = "GTC" then gtc
  else if str = "OPG" then opg
  else if str = "IOC" then ioc
  else if str = "FOK" then fok
  else if str = "GTX" then gtx
  else if str = "GTD" then gtd
  else if str = "CLS" then cls
  else invalid

/-- The defaults are those of `CreateEmptyExecutionReportData`. -/
structure ExecutionReportData where
  orderId : String := ""
  clOrdID : String := ""
  ordType : OrdType := .market
  instrument : CurrencyPair := ⟨Currency.none, Currency.none⟩
  currency : Currency := Currency.none
  settlDate : String := ""
  execType : Char := execTypeNone
  ordStatus : Char := ordStatusNotSent
  side : Side := .invalid
  orderQty : ℚ := 0
  orderPx : ℚ := 0
  lastQty : ℚ := 0
  lastPx : ℚ := 0
  leavesQty : ℚ := 0
  cumQty : ℚ := 0
  text : String := ""
  tif : TimeInForce := .invalid
deriving DecidableEq, Repr

/-- `operator[]` of a nested object: a member that is missing or null converts to nothing. -/
def Members.element (members : Members) (name : String) : Option Json :=
  match members.lookup name with
  | some .null => none
  | found => found

namespace Conversions
variable (c : Conversions) (document : Members) (name : String)

def text : Option String := JSONDocument.getValue (Members.convert c.print) "" document name
def double : Option ℚ := JSONDocument.getValue c.toDouble 0 document name

def number : Option ℚ := (document.element name).bind c.toDouble

def member (element : Json) : Option ℚ := (c.struct element).bind fun members => c.number members name

end Conversions

/-- `TranslateOrderStatus` of `BINANCE::ConnectionORD` and of `COINBASE::ConnectionORD`. -/
def translateOrderStatus (status : String) : Char × Char :=
  if status = ordStatusNameNew then (ordStatusNew, execTypeNew)
  else if status = ordStatusNamePartiallyFilled then (ordStatusPartiallyFilled, execTypePartialFill)
  else if status = ordStatusNameFilled then (ordStatusFilled, execTypeFill)
  else if status = ordStatusNameCanceled then (ordStatusCanceled, execTypeCanceled)
  else if status = ordStatusNameExpired then (ordStatusExpired, execTypeExpired)
  else (ordStatusRejected, execTypeRejected)

section TranslateOrder
variable (reg : Registry) (c : Conversions) (jd : Members)

def prepareExecReport (instrument : CurrencyPair) (orderQty : ℚ) (status : Char × Char) :
    Option ExecutionReportData := do
  let orderId ← c.text jd "orderId"
  let clOrdID ← c.text jd "clientOrderId"
  let type ← c.text jd "type"
  let side ← c.text jd "side"
  let tif ← c.text jd "timeInForce"
  let orderPx ← c.double jd "price"
  some {
    orderId, clOrdID
    ordType := if type = "MARKET" then .market else .limit
    instrument
    currency := instrument.baseCCY
    side := if side = "SELL" then .sell else if side = "BUY" then .buy else .invalid
    tif := TimeInForce.ofString tif
    orderPx, orderQty
    ordStatus := status.1
    execType := status.2 }

def generateSingleExecution (instrument : CurrencyPair) (orderQty : ℚ) (status : Char × Char) :
    Option (List ExecutionReportData) := do
  let singleExecution ← prepareExecReport c jd instrument orderQty status
  let cumQty ← c.double jd "cummulativeQuoteQty"
  some [{ singleExecution with cumQty, leavesQty := orderQty }]

def translateFills (instrument : CurrencyPair) (orderQty : ℚ) (status : Char × Char) :
    ℚ → List Json → Option (List ExecutionReportData)
  | _, [] => some []
  | executedQty, fill :: fills => do
      let singleExecution ← prepareExecReport c jd instrument orderQty status
      let lastPx ← c.member "price" fill
      let lastQty ← c.member "qty" fill
      let cumQty := c.nearest (executedQty + lastQty)
      let leavesQty := c.nearest (orderQty - cumQty)
      let singleExecution := { singleExecution with lastPx, lastQty, cumQty, leavesQty }
      let execs ← translateFills instrument orderQty status cumQty fills
      if fills.isEmpty then some (singleExecution :: execs)
      else
        some ({ singleExecution with
          ordStatus := ordStatusPartiallyFilled
          execType := execTypePartialFill } :: execs)

/-- `TranslateOrder` of `BINANCE::ConnectionORD` and of `COINBASE::ConnectionORD`. -/
def translateOrder : Option (List ExecutionReportData) := do
  let errCode ← c.text jd "code"
  if errCode ≠ "" then
    let msg ← c.text jd "msg"
    some [{
      ordStatus := ordStatusRejected
      execType := execTypeRejected
      text := "The order has failed: Error code='" ++ errCode ++ "', message='" ++ msg ++ "'" }]
  else
    let symbol ← c.text jd "symbol"
    let instrument := reg.parse symbol.toList
    let orderQty ← c.double jd "origQty"
    let status ← c.text jd "status"
    match jd.getArray "fills" with
    | some (fill :: fills) =>
        translateFills c jd instrument orderQty (translateOrderStatus status) 0 (fill :: fills)
    | _ => generateSingleExecution c jd instrument orderQty (translateOrderStatus status)

end TranslateOrder

end SpotGridBot.Core

namespace SpotGridBot.Binance
open Utils SpotGridBot.Core

def ConnectionORD.translateOrder (reg : Registry) (c : Conversions) (jd : Members) :
    Option (List ExecutionReportData) :=
  Core.translateOrder reg c jd

end SpotGridBot.Binance

namespace SpotGridBot.Coinbase
open Utils SpotGridBot.Core

def ConnectionORD.translateOrder (reg : Registry) (c : Conversions) (jd : Members) :
    Option (List ExecutionReportData) :=
  Core.translateOrder reg c jd

end SpotGridBot.Coinbase
