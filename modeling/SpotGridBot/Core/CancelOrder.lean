import SpotGridBot.Core.LifeCycle

namespace SpotGridBot.Core
open Utils Runs

inductive CancelResponse where
  | accepted
  | refused
  | malformed
  -- None comes; `ConnectionORDWS` goes on when its socket is not open.
  | missing
deriving DecidableEq, Repr

inductive CancelReply where
  -- The request throws.
  | lost
  -- Neither a WebSocket nor a REST connection: no request is sent.
  | unknownConnection
  -- `ConnectionORDWS` returns the id it was given; the response comes in a later message.
  | webSocket (response : CancelResponse)
  | rest (response : CancelResponse)
deriving DecidableEq, Repr

def CancelReply.throws : CancelReply → Bool
  | .lost => true
  | _ => false

def CancelReply.accepted : CancelReply → Bool
  | .webSocket response => response == .accepted
  | .rest response => response == .accepted
  | _ => false

namespace OrderManager
variable (m : OrderManager) (orderId : OrderId) (reply : CancelReply)

def erase : OrderManager := { m with orders := Function.update m.orders orderId none }

@[simp] theorem erase_orders : (m.erase orderId).orders = Function.update m.orders orderId none :=
  rfl

/-- What the call returns, `none` for an exception, and the cache it leaves. -/
def cancelOrder : Option Bool × OrderManager :=
  match m.orders orderId with
  | none => (some false, m)
  | some order =>
      if order.status = .filled ∨ order.status = .canceled then (some false, m)
      else
        let m := (m.store orderId { order with status := .canceled }).erase orderId
        if reply.throws then (none, m) else (some true, m)

def CancelsCleanly : Prop :=
  let cancelled := m.cancelOrder orderId reply
  (cancelled.1 = some true ∧ cancelled.2.orders orderId = none ∧ reply.accepted = true) ∨
  (cancelled.1 ≠ some true ∧ cancelled.2.orders orderId = m.orders orderId ∧
    ∀ order, m.orders orderId = some order → ∀ later : List Call,
      (run receive cancelled.2 later).orders orderId =
        some (order.lastReport (callsFor later orderId)))

def Cancellable : Prop :=
  ∃ order, m.orders orderId = some order ∧ order.status ≠ .filled ∧ order.status ≠ .canceled

variable {m orderId}

theorem cancelOrder_of_not_cancellable (settled : ¬ m.Cancellable orderId) :
    m.cancelOrder orderId reply = (some false, m) := by
  unfold cancelOrder
  cases cached : m.orders orderId with
  | none => rfl
  | some order =>
      have done : order.status = .filled ∨ order.status = .canceled := by
        by_contra opened
        push Not at opened
        exact settled ⟨order, cached, opened.1, opened.2⟩
      exact if_pos done

theorem cancelOrder_of_cancellable (cancellable : m.Cancellable orderId) :
    m.cancelOrder orderId reply =
      (if reply.throws then none else some true, m.erase orderId) := by
  obtain ⟨order, cached, notFilled, notCanceled⟩ := cancellable
  have erased : (m.store orderId { order with status := .canceled }).erase orderId =
      m.erase orderId := by
    simp [erase, store]
  simp only [cancelOrder, cached, notFilled, notCanceled, or_self, if_false, erased]
  cases reply.throws with
  | _ => rfl

theorem accepted_answers (accepted : reply.accepted = true) : reply.throws = false := by
  cases reply with
  | lost => contradiction
  | unknownConnection => rfl
  | webSocket response => rfl
  | rest response => rfl

variable (m orderId)

theorem lastReport_of_cached {order : Order} (cached : m.orders orderId = some order)
    (later : List Call) :
    (run receive m later).orders orderId = some (order.lastReport (callsFor later orderId)) := by
  rw [run_orders, cached]
  rfl

/-- Whatever was reported of the order before, a cancel of it loses no later report exactly when
there is nothing to cancel or the exchange accepts. -/
theorem cancelsCleanly_iff (earlier : List Call) :
    (run receive m earlier).CancelsCleanly orderId reply ↔
      ((run receive m earlier).Cancellable orderId → reply.accepted = true) := by
  generalize run receive m earlier = m
  by_cases cancellable : m.Cancellable orderId
  · have gone : (m.erase orderId).orders orderId = none := by simp
    simp only [CancelsCleanly, cancelOrder_of_cancellable reply cancellable, gone]
    constructor
    · rintro (⟨-, -, accepted⟩ | ⟨-, unchanged, -⟩) _
      · exact accepted
      · obtain ⟨order, cached, -, -⟩ := cancellable
        rw [cached] at unchanged
        contradiction
    · intro accepts
      have accepted := accepts cancellable
      exact .inl ⟨by simp [accepted_answers reply accepted], trivial, accepted⟩
  · simp only [CancelsCleanly, cancelOrder_of_not_cancellable reply cancellable]
    constructor
    · intro _ cancellable'
      exact absurd cancellable' cancellable
    · intro _
      exact .inr ⟨by simp, trivial, fun order cached later =>
        m.lastReport_of_cached orderId cached later⟩

def resting : OrderManager := (⟨fun _ => none, fun _ => 0⟩ : OrderManager).store "1"
  ⟨"1", .buy, 100, 10, 0, .new⟩

theorem refused_loses_fill :
    ¬ resting.CancelsCleanly "1" (.rest .refused) ∧
    (resting.cancelOrder "1" (.rest .refused)).1 = some true ∧
    (run receive (resting.cancelOrder "1" (.rest .refused)).2
      [.update "1" .filled 10]).orders "1" = none := by
  refine ⟨fun clean => ?_, by decide, by decide⟩
  cases clean with
  | inl removed => exact absurd removed.2.2 (by decide)
  | inr kept => exact kept.1 (by decide)

end OrderManager

end SpotGridBot.Core
