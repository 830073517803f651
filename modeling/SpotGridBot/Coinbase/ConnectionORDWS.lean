import SpotGridBot.Core.JSONDocument
import SpotGridBot.Core.OrderManager

namespace SpotGridBot.Coinbase
open Utils SpotGridBot.Core

def orderStatus (status : String) : OrderStatus :=
  if status = "OPEN" ∨ status = "PENDING" then .new
  else if status = "FILLED" ∨ status = "DONE" then .filled
  else if status = "CANCELLED" then .canceled
  else if status = "REJECTED" ∨ status = "FAILED" then .rejected
  else if status = "PARTIALLY_FILLED" then .partiallyFilled
  else .new

namespace ConnectionORDWS
variable (print : Json → String)

def syncOrder (m : OrderManager) (orderObj : Members) : OrderManager :=
  let orderId := orderObj.optValue print "order_id" ""
  let sideStr := orderObj.optValue print "side" ""
  let status := orderObj.optValue print "status" ""
  let sizeStr := orderObj.optValue print "size" "0"
  let priceStr := orderObj.optValue print "price" "0"
  let filledSizeStr := orderObj.optValue print "filled_size" "0"
  if orderId = "" then m
  else
    let side := if sideStr = "BUY" then Side.buy else Side.sell
    match stod sizeStr, stod priceStr, stod filledSizeStr with
    | some quantity, some price, some filled =>
        m.syncOrder orderId side price quantity (orderStatus status) filled
    -- What `stod` throws is caught, and the loop goes on.
    | _, _, _ => m

def updateOrder (m : OrderManager) (eventObj : Members) : OrderManager :=
  let orderId := eventObj.optValue print "order_id" ""
  let status := eventObj.optValue print "status" ""
  let filledSizeStr := eventObj.optValue print "filled_size" "0"
  m.updateOrder orderId (orderStatus status) ((stod filledSizeStr).getD 0)

variable (extract : Json → Option Members)

def onSnapshot (m : OrderManager) (eventObj : Members) : Outcome OrderManager :=
  if eventObj.has "orders" then
    match eventObj.getArray "orders" with
    | some orders => forObjects extract (fun m order => .done (syncOrder print m order)) m orders
    | none => .done m
  else .done m

/-- `OnOrderUpdate`, which catches what its loop throws. -/
def onOrderUpdate (m : OrderManager) (jd : Members) : OrderManager :=
  match jd.getArray "events" with
  | some events =>
      (forObjects extract (fun m event => .done (updateOrder print m event)) m events).state
  | none => m

def onUserEvent (jd : Members) (m : OrderManager) (eventObj : Members) : Outcome OrderManager :=
  match eventObj.getValue print "type" with
  | some type =>
      if type = "snapshot" then onSnapshot print extract m eventObj
      else if type = "update" then .done (onOrderUpdate print extract m jd)
      else .done m
  | none => .thrown m

def onUser (m : OrderManager) (jd : Members) : Outcome OrderManager :=
  match jd.getArray "events" with
  | some events => forObjects extract (onUserEvent print extract jd) m events
  | none => .done m

end ConnectionORDWS

end SpotGridBot.Coinbase
