import SpotGridBot.Coinbase.UserChannel
import SpotGridBot.Core.CancelOrder

/-!
# Orders between the bot and the exchange

Placements go to the exchange and are answered; what becomes of the orders comes back on the user
channel, whose messages arrive in the order they were sent. `PlaceLimitOrder` holds `m_mutex` from
before the request is sent until the order is stored, and the calls of the channel's handler wait
for it. The exchange is described by the messages it sends: its orders are what those say.
-/

namespace SpotGridBot.Coinbase
open Utils SpotGridBot.Core Runs OrderManager

/-- A call of `PlaceLimitOrder` in its critical section. `decision` is what the exchange made of the
request: an order under a new id, or nothing. -/
structure Placement where
  side : Side
  price : ℚ
  quantity : ℚ
  decision : Option (Option OrderId) := none

structure OrderFlow where
  manager : OrderManager
  placing : Option Placement := none
  exchange : OrderManager
  -- The calls that the messages under way lead to.
  channel : List Call := []
  cancelled : List OrderId := []

namespace OrderFlow
variable (extract : Json → Option Members) (print : Json → String)

inductive Event where
  | place (side : Side) (price quantity : ℚ)
  -- The exchange makes an order of the request, or refuses it.
  | decide (orderId : Option OrderId)
  | reply (reply : Reply)
  -- The exchange sends a message about its orders.
  | emit (events : List UserEvent)
  -- The handler of the channel makes its next call.
  | handle
  | cancel (orderId : OrderId) (reply : CancelReply)

def newOrder (orderId : OrderId) (p : Placement) : Order :=
  ⟨orderId, p.side, p.price, p.quantity, 0, .new⟩

def step (f : OrderFlow) : Event → OrderFlow
  | .place side price quantity =>
      match f.placing with
      | some _ => f
      | none => { f with placing := some { side, price, quantity } }
  | .decide orderId =>
      match f.placing with
      | some p =>
          match p.decision, orderId with
          | none, some orderId =>
              { f with
                placing := some { p with decision := some (some orderId) }
                exchange := f.exchange.store orderId (newOrder orderId p) }
          | none, none => { f with placing := some { p with decision := some none } }
          | some _, _ => f
      | none => f
  | .reply reply =>
      match f.placing with
      | some p =>
          match f.manager.placeLimitOrder p.side p.price p.quantity reply with
          | some (_, manager) => { f with manager := manager, placing := none }
          | none => { f with placing := none }
      | none => f
  | .emit events =>
      { f with
        exchange := run receive f.exchange (events.flatMap (UserEvent.calls print))
        channel := f.channel ++ handledCalls extract print events }
  | .handle =>
      match f.placing, f.channel with
      | none, call :: channel => { f with manager := f.manager.receive call, channel := channel }
      | _, _ => f
  | .cancel orderId reply =>
      match f.placing with
      | some _ => f
      | none =>
          { f with
            manager := (f.manager.cancelOrder orderId reply).2
            cancelled := orderId :: f.cancelled }

/-- The handler's calls leave of every order what the message says of it. -/
def ReadRight (events : List UserEvent) : Prop :=
  ∀ orderId cached,
    (callsFor (handledCalls extract print events) orderId).foldl record cached =
      (callsFor (events.flatMap (UserEvent.calls print)) orderId).foldl record cached

def Orderly (f : OrderFlow) : Event → Prop
  | .decide (some orderId) =>
      f.exchange.orders orderId = none ∧ callsFor f.channel orderId = []
  | .reply reply =>
      ∀ p, f.placing = some p → ∃ decision, p.decision = some decision ∧ reply.acceptedId = decision
  | .emit events => ReadRight extract print events
  | _ => True

def expected (f : OrderFlow) (orderId : OrderId) : Option Order :=
  match f.placing with
  | some p =>
      if p.decision = some (some orderId) then some (newOrder orderId p)
      else f.manager.orders orderId
  | none => f.manager.orders orderId

def Mirrors (f : OrderFlow) : Prop :=
  ∀ orderId ∉ f.cancelled,
    (callsFor f.channel orderId).foldl record (f.expected orderId) = f.exchange.orders orderId

/-- When the messages under way have been handled and no placement is in its critical section, the
cache has of every order that was not cancelled what the exchange has. -/
def Converges (f : OrderFlow) : Prop :=
  f.placing = none → f.channel = [] →
    ∀ orderId ∉ f.cancelled, f.manager.orders orderId = f.exchange.orders orderId

variable {extract print} {f : OrderFlow}

theorem mirrors_emit (mirrors : f.Mirrors) {events : List UserEvent}
    (right : ReadRight extract print events) : (f.step extract print (.emit events)).Mirrors := by
  intro orderId tracked
  change (callsFor (f.channel ++ _) orderId).foldl record (f.expected orderId) =
    (run receive f.exchange _).orders orderId
  rw [callsFor_append, List.foldl_append, mirrors orderId tracked, right, run_orders,
    ← foldl_record]

theorem mirrors_handle (mirrors : f.Mirrors) : (f.step extract print .handle).Mirrors := by
  unfold step
  cases placing : f.placing with
  | some p => exact mirrors
  | none =>
      cases channel : f.channel with
      | nil => simpa [placing, channel] using mirrors
      | cons call rest =>
          intro orderId tracked
          have before := mirrors orderId tracked
          simp only [expected, placing, channel] at before ⊢
          rw [receive_orders, ← before]
          unfold callsFor
          by_cases here : call.orderId = orderId
          · simp [here]
          · simp [here]

theorem mirrors_place (mirrors : f.Mirrors) (side : Side) (price quantity : ℚ) :
    (f.step extract print (.place side price quantity)).Mirrors := by
  unfold step
  cases placing : f.placing with
  | some p => exact mirrors
  | none =>
      intro orderId tracked
      have before := mirrors orderId tracked
      simpa [expected, placing] using before

theorem mirrors_decide (mirrors : f.Mirrors) (decision : Option OrderId)
    (fresh : Orderly extract print f (.decide decision)) :
    (f.step extract print (.decide decision)).Mirrors := by
  unfold step
  cases placing : f.placing with
  | none => exact mirrors
  | some p =>
      dsimp only
      cases decided : p.decision with
      | some _ => exact mirrors
      | none =>
          cases decision with
          | none =>
              intro orderId tracked
              have before := mirrors orderId tracked
              simpa [expected, placing, decided] using before
          | some newId =>
              intro orderId tracked
              have before := mirrors orderId tracked
              by_cases here : orderId = newId
              · subst here
                simp only [expected, fresh.2, store_orders, Function.update_self]
                rfl
              · simpa [expected, placing, decided, here, Ne.symm here] using before

theorem mirrors_reply (mirrors : f.Mirrors) (reply : Reply)
    (answered : Orderly extract print f (.reply reply)) :
    (f.step extract print (.reply reply)).Mirrors := by
  unfold step
  cases placing : f.placing with
  | none => exact mirrors
  | some p =>
      obtain ⟨decision, decided, accepts⟩ := answered p placing
      have kept : reply.acceptedId = none →
          Mirrors { f with placing := none } := by
        intro refused orderId tracked
        have before := mirrors orderId tracked
        rw [← accepts, refused] at decided
        simpa [expected, placing, decided] using before
      dsimp only
      rcases f.manager.placeLimitOrder_cases p.side p.price p.quantity reply with
        ⟨-, refused, threw⟩ | ⟨-, refused, answers⟩ | ⟨newId, -, accepted, stored⟩
      · rw [threw]
        exact kept refused
      · rw [answers]
        exact kept refused
      · rw [stored]
        rw [← accepts, accepted] at decided
        intro orderId tracked
        have before := mirrors orderId tracked
        simp only [expected, placing, decided] at before
        simp only [expected, store_orders]
        by_cases here : orderId = newId
        · subst here
          simpa [newOrder] using before
        · simpa [here, Ne.symm here] using before

theorem cancelOrder_orders_of_ne (m : OrderManager) {orderId i : OrderId} (reply : CancelReply)
    (other : i ≠ orderId) : (m.cancelOrder orderId reply).2.orders i = m.orders i := by
  by_cases cancellable : m.Cancellable orderId
  · rw [cancelOrder_of_cancellable reply cancellable]
    simp [other]
  · rw [cancelOrder_of_not_cancellable reply cancellable]

theorem mirrors_cancel (mirrors : f.Mirrors) (orderId : OrderId) (reply : CancelReply) :
    (f.step extract print (.cancel orderId reply)).Mirrors := by
  unfold step
  cases placing : f.placing with
  | some p => exact mirrors
  | none =>
      intro i tracked
      obtain ⟨other, tracked⟩ := not_or.mp (mt List.mem_cons.mpr tracked)
      have before := mirrors i tracked
      simp only [expected, placing] at before ⊢
      rwa [cancelOrder_orders_of_ne f.manager reply other]

theorem mirrors_step (mirrors : f.Mirrors) (event : Event)
    (orderly : Orderly extract print f event) : (f.step extract print event).Mirrors := by
  cases event with
  | place side price quantity => exact mirrors_place mirrors side price quantity
  | decide orderId => exact mirrors_decide mirrors orderId orderly
  | reply reply => exact mirrors_reply mirrors reply orderly
  | emit events => exact mirrors_emit mirrors orderly
  | handle => exact mirrors_handle mirrors
  | cancel orderId reply => exact mirrors_cancel mirrors orderId reply

def agreeing (orders : OrderId → Option Order) (balance : Currency → ℚ) : OrderFlow where
  manager := ⟨orders, balance⟩
  exchange := ⟨orders, balance⟩

def filledAtOnce : UserEvent where
  members := [("type", .scalar "update"), ("order_id", .scalar "7"), ("status", .scalar "FILLED"),
    ("filled_size", .scalar "10")]
  type := .update
  orders := []
  typed := rfl
  listed := rfl

def race : List Event :=
  [.place .buy 100 10, .decide (some "7"), .emit [filledAtOnce], .handle, .reply (.accepted "7"),
    .handle]

def emptySnapshot : UserEvent where
  members := [("type", .scalar "snapshot")]
  type := .snapshot
  orders := []
  typed := rfl
  listed := rfl

def quietRace : List Event :=
  [.place .buy 100 10, .decide (some "7"), .emit [emptySnapshot], .reply (.accepted "7")]

end OrderFlow

end SpotGridBot.Coinbase
