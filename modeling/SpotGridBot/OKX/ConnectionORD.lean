import SpotGridBot.Core.ExecutionReports

namespace SpotGridBot.Core

structure JSONError where
  msg : String := ""
  code : ℤ := 0
deriving DecidableEq, Repr

/-- `toLong` is `convert<long>`. -/
def parseJSONMessageWithCode (c : Conversions) (toLong : Json → Option ℤ) (jd : Members) :
    Option JSONError := do
  let msg ← c.text jd "msg"
  let code ← JSONDocument.getValue toLong 0 jd "code"
  some { msg, code }

end SpotGridBot.Core

namespace SpotGridBot.OKX.ConnectionORD
open Utils SpotGridBot.Core

def ordStatusLive : String := "live"
def ordStatusPartiallyFilled : String := "partially_filled"
def ordStatusFilled : String := "filled"
def ordStatusCanceled : String := "canceled"

structure OrderActionResult where
  state : JSONError
  data : Option (List Json)

def int32 (x : ℤ) : ℤ := (x + 2 ^ 31) % 2 ^ 32 - 2 ^ 31

section TranslateOrder
variable (reg : Registry) (c : Conversions) (toLong : Json → Option ℤ)
  (formatTimestamp : ℤ → String) (jd : Members)

def getOrderActionResult : Option OrderActionResult := do
  let state ← parseJSONMessageWithCode c toLong jd
  some { state, data := jd.getArray "data" }

def translateState (ordStatus : String) : Char × Char :=
  if ordStatus = ordStatusLive then (Utils.ordStatusNew, execTypeNew)
  else if ordStatus = ordStatusPartiallyFilled then
    (Utils.ordStatusPartiallyFilled, execTypePartialFill)
  else if ordStatus = ordStatusFilled then (Utils.ordStatusFilled, execTypeFill)
  else if ordStatus = ordStatusCanceled then (Utils.ordStatusCanceled, execTypeCanceled)
  else (ordStatusRejected, execTypeRejected)

/-- `getValFunc`: zero for what does not convert. -/
def getVal (elem : Members) (name : String) : ℚ := (c.number elem name).getD 0

def translateElement (elem : Members) : Option ExecutionReportData := do
  let orderId ← elem.getValue c.print "ordId"
  let clOrdID ← elem.getValue c.print "clOrdId"
  let ordStatus ← elem.getValue c.print "state"
  let ordType ← elem.getValue c.print "ordType"
  let instId ← elem.getValue c.print "instId"
  let uTime ← elem.element "uTime" >>= toLong
  let side ← elem.getValue c.print "side"
  let instrument := reg.parse (translateSymbol instId).toList
  let lastQty := getVal c elem "fillSz"
  some {
    orderId, clOrdID
    ordStatus := (translateState ordStatus).1
    execType := (translateState ordStatus).2
    ordType := if ordType = "market" then .market else .limit
    instrument
    currency := instrument.quoteCCY
    settlDate := formatTimestamp (uTime * 1000000)
    side := if side = "sell" then .sell else if side = "buy" then .buy else .invalid
    orderQty := getVal c elem "sz"
    lastQty
    cumQty := lastQty
    orderPx := getVal c elem "px"
    lastPx := getVal c elem "fillPx"
    tif :=
      if ordType = "fok" then .fok
      else if ordType = "ioc" ∨ ordType = "optimal_limit_ioc" then .ioc
      else .gtc }

def translateOrder : Option (List ExecutionReportData) := do
  let oar ← getOrderActionResult c toLong jd
  if oar.state.code ≠ 0 then
    some [{ text := "The order has failed: Error code='" ++ toString (int32 oar.state.code) ++
      "', message='" ++ oar.state.msg ++ "'" }]
  else
    match oar.data with
    | none => some [{ text := "'data' is missing or not an array" }]
    | some [] => some [{ text := "'data' is empty" }]
    | some (elem :: _) => do
        let elem ← c.struct elem
        let res ← translateElement reg c toLong formatTimestamp elem
        some [res]

end TranslateOrder

end SpotGridBot.OKX.ConnectionORD
