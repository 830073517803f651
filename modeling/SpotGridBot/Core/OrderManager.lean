import SpotGridBot.Utils.FixTypes
import Mathlib.Logic.Function.Basic

namespace SpotGridBot.Core
open Utils

abbrev OrderId := String

inductive OrderStatus where
  | new
  | partiallyFilled
  | filled
  | canceled
  | rejected
deriving DecidableEq, Repr

/-- `α` stands for `double`. -/
structure Order (α : Type := ℚ) where
  id : OrderId
  side : Side
  price : α
  quantity : α
  filled : α
  status : OrderStatus := .new
deriving DecidableEq, Repr

/-- What `PlaceLimitOrder` reads of a response document: its `success` text and the `order_id` of
its `success_response`, `none` when that part does not parse. -/
structure PlaceResponse where
  success : String
  orderId : Option OrderId
deriving DecidableEq, Repr

inductive Reply where
  -- The request fails: `SendOrder` throws.
  | lost
  -- The order connection is not a REST connection.
  | unknownConnection
  -- `SendOrder` answers; `none` when `JSONDocument` throws on the text.
  | answer (document : Option PlaceResponse)
deriving DecidableEq, Repr

def Reply.accepted (orderId : OrderId) : Reply := .answer (some ⟨"true", some orderId⟩)

def Reply.throws : Reply → Bool
  | .lost => true
  | .unknownConnection => false
  | .answer none => true
  | .answer (some response) => response.success = "true" && response.orderId.isNone

def Reply.acceptedId : Reply → Option OrderId
  | .answer (some response) => if response.success = "true" then response.orderId else none
  | _ => none

/-- `m_orders` and `m_balance`; a currency `m_balance` does not hold reads as zero. -/
@[ext]
structure OrderManager (α : Type := ℚ) where
  orders : OrderId → Option (Order α)
  balance : Currency → α

namespace OrderManager
variable {α : Type} (m : OrderManager α)

def store (orderId : OrderId) (order : Order α) : OrderManager α :=
  { m with orders := Function.update m.orders orderId (some order) }

@[simp] theorem store_orders (orderId : OrderId) (order : Order α) :
    (m.store orderId order).orders = Function.update m.orders orderId (some order) := rfl

/-- `none` is an exception; it leaves the cache as it was. -/
def placeLimitOrder [Zero α] (side : Side) (price quantity : α) :
    Reply → Option (OrderId × OrderManager α)
  | .lost => none
  | .unknownConnection => some ("", m)
  | .answer none => none
  | .answer (some response) =>
      if response.success = "true" then
        match response.orderId with
        | none => none
        | some orderId =>
            some (orderId, m.store orderId
              { id := orderId, side, price, quantity, filled := 0, status := .new })
      else some ("", m)

def getOrderLocal (orderId : OrderId) : Option (Order α) := m.orders orderId

def updateOrder (orderId : OrderId) (status : OrderStatus) (filled : α) : OrderManager α :=
  match m.orders orderId with
  | none => m
  | some order => m.store orderId { order with status, filled }

def syncOrder (orderId : OrderId) (side : Side) (price quantity : α) (status : OrderStatus)
    (filled : α) : OrderManager α :=
  match m.orders orderId with
  | some order => m.store orderId { order with status, filled }
  | none => m.store orderId { id := orderId, side, price, quantity, filled, status }

def getBalance (currency : Currency) : α := m.balance currency

def setBalance (currency : Currency) (amount : α) : OrderManager α :=
  { m with balance := Function.update m.balance currency amount }

section Update
variable (orderId i : OrderId) (status : OrderStatus) (filled : α)

theorem updateOrder_cached (order : Order α) (cached : m.orders i = some order) :
    (m.updateOrder orderId status filled).orders i =
      some (if i = orderId then { order with status, filled } else order) := by
  unfold updateOrder
  by_cases same : i = orderId
  · subst same
    simp [cached]
  · cases m.orders orderId with
    | none => simp [same, cached]
    | some _ => simp [same, cached]

theorem updateOrder_unknown (unknown : m.orders i = none) :
    (m.updateOrder orderId status filled).orders i = none := by
  unfold updateOrder
  cases cached : m.orders orderId with
  | none => exact unknown
  | some order =>
      have other : i ≠ orderId := by
        rintro rfl
        simp [unknown] at cached
      simp [other, unknown]

theorem syncOrder_cached (order : Order α) (cached : m.orders i = some order) (side : Side)
    (price quantity : α) :
    (m.syncOrder orderId side price quantity status filled).orders i =
      some (if i = orderId then { order with status, filled } else order) := by
  unfold syncOrder
  by_cases same : i = orderId
  · subst same
    simp [cached]
  · cases m.orders orderId with
    | none => simp [same, cached]
    | some _ => simp [same, cached]

theorem syncOrder_unknown (unknown : m.orders i = none) (side : Side) (price quantity : α) :
    (m.syncOrder orderId side price quantity status filled).orders i =
      if i = orderId then some ⟨orderId, side, price, quantity, filled, status⟩ else none := by
  unfold syncOrder
  by_cases same : i = orderId
  · subst same
    simp [unknown]
  · cases m.orders orderId with
    | none => simp [same, unknown]
    | some _ => simp [same, unknown]

end Update

theorem placeLimitOrder_cases [Zero α] (side : Side) (price quantity : α) (reply : Reply) :
    (reply.throws = true ∧ reply.acceptedId = none ∧
      m.placeLimitOrder side price quantity reply = none) ∨
    (reply.throws = false ∧ reply.acceptedId = none ∧
      m.placeLimitOrder side price quantity reply = some ("", m)) ∨
    ∃ orderId, reply.throws = false ∧ reply.acceptedId = some orderId ∧
      m.placeLimitOrder side price quantity reply =
        some (orderId, m.store orderId ⟨orderId, side, price, quantity, 0, .new⟩) := by
  cases reply with
  | lost => exact .inl ⟨rfl, rfl, rfl⟩
  | unknownConnection => exact .inr (.inl ⟨rfl, rfl, rfl⟩)
  | answer document =>
      cases document with
      | none => exact .inl ⟨rfl, rfl, rfl⟩
      | some response =>
          obtain ⟨success, orderId⟩ := response
          by_cases accepted : success = "true"
          · cases orderId with
            | none => simp [placeLimitOrder, Reply.acceptedId, Reply.throws, accepted]
            | some orderId => simp [placeLimitOrder, Reply.acceptedId, Reply.throws, accepted]
          · simp [placeLimitOrder, Reply.acceptedId, Reply.throws, accepted]

end OrderManager

end SpotGridBot.Core
