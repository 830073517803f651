import SpotGridBot.Coinbase.ConnectionORDWS
import SpotGridBot.Core.LifeCycle
import Mathlib.Data.List.DropRight

namespace SpotGridBot.Coinbase
open Utils SpotGridBot.Core Runs OrderManager

inductive EventType where
  | snapshot
  | update
deriving DecidableEq

def EventType.text : EventType → String
  | snapshot => "snapshot"
  | update => "update"

structure UserEvent where
  members : Members
  type : EventType
  orders : List Members
  typed : members.lookup "type" = some (.scalar type.text)
  listed : (members.getArray "orders").getD [] = orders.map .object

def userMessage (others : Members) (events : List UserEvent) : Members :=
  ("events", .array (events.map fun event => .object event.members)) :: others

section Calls
variable (print : Json → String)

def syncCall (order : Members) : Option Call :=
  if order.optValue print "order_id" "" = "" then none
  else
    match stod (order.optValue print "size" "0"), stod (order.optValue print "price" "0"),
      stod (order.optValue print "filled_size" "0") with
    | some quantity, some price, some filled => some
        (.sync (order.optValue print "order_id" "")
          (if order.optValue print "side" "" = "BUY" then .buy else .sell)
          price quantity (orderStatus (order.optValue print "status" "")) filled)
    | _, _, _ => none

def updateCall (order : Members) : Call :=
  .update (order.optValue print "order_id" "") (orderStatus (order.optValue print "status" ""))
    ((stod (order.optValue print "filled_size" "0")).getD 0)

end Calls

namespace UserEvent
variable (print : Json → String) (event : UserEvent) (events : List UserEvent)

def isSnapshot : Bool := event.type == .snapshot

def synced : List Call :=
  match event.type with
  | .snapshot => event.orders.filterMap (syncCall print)
  | .update => []

def calls : List Call :=
  match event.type with
  | .snapshot => event.synced print
  | .update =>
      ((if event.members.optValue print "order_id" "" = "" then [] else [event.members]) ++
        event.orders).map (updateCall print)

/-- What `OnOrderUpdate` reads of the message: every event as if it were an order. -/
def walk : List Call := events.map fun event => updateCall print event.members

def handled : List Call :=
  match event.type with
  | .snapshot => event.synced print
  | .update => walk print events

end UserEvent

open UserEvent

def handledCalls (extract : Json → Option Members) (print : Json → String)
    (events : List UserEvent) : List Call :=
  match extract (.object []) with
  | some _ => events.flatMap (handled print · events)
  | none => []

section Settling
variable (print : Json → String) (m : OrderManager) (events : List UserEvent)

/-- The calls that decide what the handler leaves: the orders of the snapshots up to the last update
event, the walk over the message if there is such an event, the orders of the snapshots after it. -/
def settling : List Call :=
  let upTo := events.rdropWhile isSnapshot
  upTo.flatMap (synced print) ++ (if upTo.isEmpty then [] else walk print events) ++
    (events.rtakeWhile isSnapshot).flatMap (synced print)

def known (orderId : OrderId) : Option Order :=
  m.orders orderId <|> (callsFor (events.flatMap (synced print)) orderId).findSome? Call.created

def Settles : Prop :=
  ∀ orderId order, known print m events orderId = some order →
    order.lastReport (callsFor (settling print events) orderId) =
      order.lastReport (callsFor (events.flatMap (calls print)) orderId)

def Repeats : Prop :=
  ∀ orderId order, known print m events orderId = some order →
    m.orders orderId = some order ∧
      order.lastReport (callsFor (events.flatMap (calls print)) orderId) = order

end Settling

theorem syncOrder_eq_run (print : Json → String) (m : OrderManager) (order : Members) :
    ConnectionORDWS.syncOrder print m order = run receive m (syncCall print order).toList := by
  unfold ConnectionORDWS.syncOrder syncCall
  by_cases empty : order.optValue print "order_id" "" = ""
  · simp [empty]
  · simp only [empty, if_false]
    cases stod (order.optValue print "size" "0") with
    | none => rfl
    | some quantity =>
        cases stod (order.optValue print "price" "0") with
        | none => rfl
        | some price =>
            cases stod (order.optValue print "filled_size" "0") with
            | none => rfl
            | some filled => rfl

section Handler
variable (print : Json → String) {extract : Json → Option Members} (m : OrderManager)

theorem forEach_syncOrder (orders : List Members) :
    Outcome.forEach (fun m order => .done (ConnectionORDWS.syncOrder print m order)) m orders =
      .done (run receive m (orders.filterMap (syncCall print))) := by
  induction orders generalizing m with
  | nil => rfl
  | cons order orders ih =>
      rw [Outcome.forEach_cons, Outcome.bind_done, ih, syncOrder_eq_run, ← run_append]
      congr 2
      cases call : syncCall print order with
      | none => simp [call]
      | some call' => simp [call]

theorem onSnapshot_eq_run (keeps : Keeps extract) (event : UserEvent) :
    ConnectionORDWS.onSnapshot print extract m event.members =
      .done (run receive m (event.orders.filterMap (syncCall print))) := by
  rw [← forEach_syncOrder, ← forObjects_keeps _ keeps, ← event.listed]
  unfold ConnectionORDWS.onSnapshot
  cases array : event.members.getArray "orders" with
  | none => split <;> rfl
  | some orders =>
      have present : event.members.has "orders" = true := by
        unfold Members.getArray at array
        unfold Members.has
        split at array
        next elements found => simp [found]
        next => contradiction
      rw [present]
      rfl

theorem userMessage_events (others : Members) (events : List UserEvent) :
    (userMessage others events).getArray "events" =
      some ((events.map UserEvent.members).map .object) := by
  rw [List.map_map]
  rfl

theorem onOrderUpdate_eq_run (keeps : Keeps extract) (others : Members) (events : List UserEvent) :
    ConnectionORDWS.onOrderUpdate print extract m (userMessage others events) =
      run receive m (walk print events) := by
  have walked : ∀ (events : List UserEvent) (m : OrderManager),
      Outcome.forEach (fun m event => .done (ConnectionORDWS.updateOrder print m event)) m
        (events.map UserEvent.members) = .done (run receive m (walk print events)) := by
    intro events
    induction events with
    | nil => exact fun m => rfl
    | cons event events ih => exact fun m => ih _
  unfold ConnectionORDWS.onOrderUpdate
  rw [userMessage_events]
  dsimp only
  rw [forObjects_keeps _ keeps, walked]
  rfl

theorem onUserEvent_eq_run (keeps : Keeps extract) (others : Members) (events : List UserEvent)
    (event : UserEvent) :
    ConnectionORDWS.onUserEvent print extract (userMessage others events) m event.members =
      .done (run receive m (event.handled print events)) := by
  have typed : event.members.getValue print "type" = some event.type.text := by
    unfold Members.getValue
    rw [event.typed]
    rfl
  unfold ConnectionORDWS.onUserEvent UserEvent.handled
  rw [typed]
  cases type : event.type with
  | snapshot =>
      refine (onSnapshot_eq_run print m keeps event).trans ?_
      simp only [UserEvent.synced, type]
  | update =>
      dsimp only
      rw [onOrderUpdate_eq_run print m keeps]
      rfl

theorem onUser_keeps (keeps : Keeps extract) (others : Members) (events : List UserEvent) :
    ConnectionORDWS.onUser print extract m (userMessage others events) =
      .done (run receive m (events.flatMap (handled print · events))) := by
  have each : ∀ (rest : List UserEvent) (m : OrderManager),
      Outcome.forEach (ConnectionORDWS.onUserEvent print extract (userMessage others events)) m
        (rest.map UserEvent.members) =
          .done (run receive m (rest.flatMap (handled print · events))) := by
    intro rest
    induction rest with
    | nil => exact fun m => rfl
    | cons event rest ih =>
        intro m
        rw [List.map_cons, Outcome.forEach_cons, onUserEvent_eq_run print m keeps,
          Outcome.bind_done, ih, List.flatMap_cons, run_append]
  unfold ConnectionORDWS.onUser
  rw [userMessage_events]
  dsimp only
  rw [forObjects_keeps _ keeps, each]

theorem onUser_drops (drops : Drops extract) (others : Members) (events : List UserEvent) :
    (ConnectionORDWS.onUser print extract m (userMessage others events)).state = m := by
  unfold ConnectionORDWS.onUser
  rw [userMessage_events]
  exact forObjects_drops _ drops m _

end Handler

section Exact
variable (print : Json → String) {extract : Json → Option Members} (events : List UserEvent)
  (orderId : OrderId)

theorem callsFor_flatMap {f g : UserEvent → List Call}
    (same : ∀ event, callsFor (f event) orderId = callsFor (g event) orderId) :
    callsFor (events.flatMap f) orderId = callsFor (events.flatMap g) orderId := by
  unfold callsFor at same ⊢
  rw [List.filter_flatMap, List.filter_flatMap, funext same]

theorem findSome?_created_updates (orders : List Members) :
    (callsFor (orders.map (updateCall print)) orderId).findSome? Call.created = none := by
  rw [List.findSome?_eq_none_iff]
  intro call member
  obtain ⟨order, -, rfl⟩ := List.mem_map.mp (List.mem_filter.mp member).1
  rfl

theorem findSome?_created_flatMap {f : UserEvent → List Call}
    (synced_or_updates : ∀ event, f event = event.synced print ∨
      event.synced print = [] ∧ ∃ orders : List Members, f event = orders.map (updateCall print)) :
    (callsFor (events.flatMap f) orderId).findSome? Call.created =
      (callsFor (events.flatMap (synced print)) orderId).findSome? Call.created := by
  induction events with
  | nil => rfl
  | cons event events ih =>
      unfold callsFor at ih ⊢
      rw [List.flatMap_cons, List.flatMap_cons, List.filter_append, List.filter_append,
        List.findSome?_append, List.findSome?_append, ih]
      rcases synced_or_updates event with same | ⟨nothing, orders, updates⟩
      · rw [same]
      · have none := findSome?_created_updates print orderId orders
        unfold callsFor at none
        rw [nothing, updates, none]
        rfl

theorem handled_synced_or_updates (all : List UserEvent) (event : UserEvent) :
    event.handled print all = event.synced print ∨
      event.synced print = [] ∧
        ∃ orders : List Members, event.handled print all = orders.map (updateCall print) := by
  unfold handled
  cases type : event.type with
  | snapshot => exact .inl rfl
  | update => exact .inr ⟨by simp [synced, type], all.map UserEvent.members, by simp [walk]⟩

theorem calls_synced_or_updates (event : UserEvent) :
    event.calls print = event.synced print ∨
      event.synced print = [] ∧
        ∃ orders : List Members, event.calls print = orders.map (updateCall print) := by
  unfold UserEvent.calls
  cases type : event.type with
  | snapshot => exact .inl rfl
  | update => exact .inr ⟨by simp [synced, type], _, rfl⟩

theorem handled_snapshots (all : List UserEvent)
    (snapshots : ∀ event ∈ events, event.isSnapshot = true) :
    events.flatMap (handled print · all) = events.flatMap (synced print) := by
  apply List.flatMap_congr
  intro event member
  have type : event.type = .snapshot := by simpa [isSnapshot] using snapshots event member
  simp [handled, type]

theorem callsFor_append (earlier later : List Call) :
    callsFor (earlier ++ later) orderId = callsFor earlier orderId ++ callsFor later orderId :=
  List.filter_append earlier later

theorem lastReport_settling (order : Order) :
    order.lastReport (callsFor (events.flatMap (handled print · events)) orderId) =
      order.lastReport (callsFor (settling print events) orderId) := by
  have parts : events.rdropWhile isSnapshot ++ events.rtakeWhile isSnapshot = events :=
    List.rdropWhile_append_rtakeWhile
  have after := handled_snapshots print (events.rtakeWhile isSnapshot) events
    fun event member => List.mem_rtakeWhile_imp member
  have whole := congrArg (List.flatMap (handled print · events)) parts
  rw [List.flatMap_append, after] at whole
  rw [← whole, settling]
  rcases List.eq_nil_or_concat' (events.rdropWhile isSnapshot) with none | ⟨front, last, upTo⟩
  · rw [none]
    rfl
  · have update : last.type = .update := by
      have stops := List.rdropWhile_last_not isSnapshot events (by simp [upTo])
      cases type : last.type with
      | snapshot => simp [upTo, isSnapshot, type] at stops
      | update => rfl
    have nothing : last.synced print = [] := by simp [synced, update]
    have walks : last.handled print events = walk print events := by simp [handled, update]
    have walked : (front ++ [last]).isEmpty = false := by simp
    simp only [upTo, List.flatMap_append, List.flatMap_singleton, nothing, walks, List.append_nil,
      walked, Bool.false_eq_true, if_false, callsFor_append, List.append_assoc]
    by_cases silent : callsFor (walk print events) orderId = []
    · have same : ∀ event : UserEvent,
          callsFor (event.handled print events) orderId =
            callsFor (event.synced print) orderId := by
        intro event
        unfold handled synced
        cases event.type with
        | snapshot => rfl
        | update => exact silent
      rw [callsFor_flatMap front orderId same]
    · apply order.lastReport_append
      simp [silent]

theorem handled_eq_calls_iff (m : OrderManager) :
    run receive m (events.flatMap (handled print · events)) =
        run receive m (events.flatMap (calls print)) ↔
      Settles print m events := by
  have each : ∀ orderId, ((run receive m (events.flatMap (handled print · events))).orders orderId =
      (run receive m (events.flatMap (calls print))).orders orderId ↔
      ∀ order, known print m events orderId = some order →
        order.lastReport (callsFor (settling print events) orderId) =
          order.lastReport (callsFor (events.flatMap (calls print)) orderId)) := by
    intro orderId
    rw [run_orders, run_orders,
      findSome?_created_flatMap print events orderId (handled_synced_or_updates print events),
      findSome?_created_flatMap print events orderId (calls_synced_or_updates print)]
    change (known print m events orderId).map _ = (known print m events orderId).map _ ↔ _
    cases known print m events orderId with
    | none => simp
    | some order => simp [lastReport_settling]
  rw [OrderManager.ext_iff, run_balance, run_balance, Settles]
  constructor
  · intro same orderId
    exact (each orderId).mp (congrFun same.1 orderId)
  · intro settles
    exact ⟨funext fun orderId => (each orderId).mpr (settles orderId), rfl⟩

theorem eq_calls_iff (m : OrderManager) :
    m = run receive m (events.flatMap (calls print)) ↔ Repeats print m events := by
  have each : ∀ orderId, (m.orders orderId =
      (run receive m (events.flatMap (calls print))).orders orderId ↔
      ∀ order, known print m events orderId = some order → m.orders orderId = some order ∧
        order.lastReport (callsFor (events.flatMap (calls print)) orderId) = order) := by
    intro orderId
    rw [run_orders,
      findSome?_created_flatMap print events orderId (calls_synced_or_updates print)]
    change m.orders orderId = (known print m events orderId).map _ ↔ _
    cases cached : m.orders orderId with
    | none => cases known print m events orderId <;> simp
    | some order =>
        have same : known print m events orderId = some order := by simp [known, cached]
        simp [same, eq_comm]
  rw [OrderManager.ext_iff, run_balance, Repeats]
  constructor
  · intro same orderId
    exact (each orderId).mp (congrFun same.1 orderId)
  · intro repeats
    exact ⟨funext fun orderId => (each orderId).mpr (repeats orderId), rfl⟩

end Exact

def filledUpdate : UserEvent where
  members :=
    [("type", .scalar "update"),
      ("orders", .array [.object
        [("order_id", .scalar "7"), ("status", .scalar "FILLED"), ("filled_size", .scalar "10")]])]
  type := .update
  orders :=
    [[("order_id", .scalar "7"), ("status", .scalar "FILLED"), ("filled_size", .scalar "10")]]
  typed := rfl
  listed := rfl

def oneOrder : OrderManager where
  orders := Function.update (fun _ => none) "7" (some ⟨"7", .buy, 100, 10, 0, .new⟩)
  balance _ := 0

end SpotGridBot.Coinbase
