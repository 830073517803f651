import SpotGridBot.Coinbase.UserChannel
import SpotGridBot.Core.ExecutionReports

namespace SpotGridBot.Coinbase
open Utils SpotGridBot.Core Runs OrderManager

def ConnectionORDWS.translateOrderStatus (status : String) : Char × Char :=
  if status = "OPEN" ∨ status = "PENDING" ∨ status = ordStatusNameNew then
    (ordStatusNew, execTypeNew)
  else if status = "FILLED" ∨ status = "DONE" ∨ status = ordStatusNameFilled then
    (ordStatusFilled, execTypeFill)
  else if status = "CANCELLED" ∨ status = ordStatusNameCanceled then
    (ordStatusCanceled, execTypeCanceled)
  else if status = "REJECTED" ∨ status = "FAILED" ∨ status = ordStatusNameRejected then
    (ordStatusRejected, execTypeRejected)
  else if status = "PARTIALLY_FILLED" ∨ status = ordStatusNamePartiallyFilled then
    (ordStatusPartiallyFilled, execTypePartialFill)
  else if status = "EXPIRED" ∨ status = ordStatusNameExpired then
    (ordStatusExpired, execTypeExpired)
  else (ordStatusNew, execTypeNew)

def ordStatus : OrderStatus → Char
  | .new => ordStatusNew
  | .partiallyFilled => ordStatusPartiallyFilled
  | .filled => ordStatusFilled
  | .canceled => ordStatusCanceled
  | .rejected => ordStatusRejected

structure SameStatus (print : Json → String) (status : String) : Prop where
  snapshot : ∀ (m : OrderManager) (order : Members),
    order.optValue print "status" "" = status → (syncCall print order).isSome = true →
    ∃ cached, (ConnectionORDWS.syncOrder print m order).orders
        (order.optValue print "order_id" "") = some cached ∧
      ordStatus cached.status = (ConnectionORDWS.translateOrderStatus status).1
  update : ∀ (m : OrderManager) (order : Members),
    order.optValue print "status" "" = status →
    (m.orders (order.optValue print "order_id" "")).isSome = true →
    ∃ cached, (ConnectionORDWS.updateOrder print m order).orders
        (order.optValue print "order_id" "") = some cached ∧
      ordStatus cached.status = (ConnectionORDWS.translateOrderStatus status).1

def statusNames : List String :=
  ["OPEN", "PENDING", "NEW", "FILLED", "DONE", "CANCELLED", "CANCELED", "REJECTED", "FAILED",
    "PARTIALLY_FILLED", "EXPIRED"]

theorem orderStatus_of_other {status : String} (other : status ∉ statusNames) :
    orderStatus status = .new ∧
      (ConnectionORDWS.translateOrderStatus status).1 = ordStatusNew := by
  simp only [statusNames, List.mem_cons, List.not_mem_nil, or_false, not_or] at other
  constructor
  · simp only [orderStatus, other, or_self, if_false]
  · simp only [ConnectionORDWS.translateOrderStatus, ordStatusNameNew, ordStatusNameFilled,
      ordStatusNameCanceled, ordStatusNameRejected, ordStatusNamePartiallyFilled,
      ordStatusNameExpired, other, or_self, if_false]

theorem ordStatus_orderStatus_iff (status : String) :
    ordStatus (orderStatus status) = (ConnectionORDWS.translateOrderStatus status).1 ↔
      status ≠ "CANCELED" ∧ status ≠ "EXPIRED" := by
  by_cases named : status ∈ statusNames
  · have each : ∀ status ∈ statusNames,
        (ordStatus (orderStatus status) = (ConnectionORDWS.translateOrderStatus status).1 ↔
          status ≠ "CANCELED" ∧ status ≠ "EXPIRED") := by decide
    exact each status named
  · have unlike : status ≠ "CANCELED" ∧ status ≠ "EXPIRED" :=
      ⟨fun same => named (same ▸ by decide), fun same => named (same ▸ by decide)⟩
    obtain ⟨new, translated⟩ := orderStatus_of_other named
    rw [new, translated]
    exact iff_of_true rfl unlike

section Handlers
variable (print : Json → String) (m : OrderManager)

theorem syncOrder_caches {order : Members} (synced : (syncCall print order).isSome = true) :
    ∃ cached, (ConnectionORDWS.syncOrder print m order).orders
        (order.optValue print "order_id" "") = some cached ∧
      cached.status = orderStatus (order.optValue print "status" "") := by
  obtain ⟨call, reads⟩ := Option.isSome_iff_exists.mp synced
  rw [syncOrder_eq_run, reads]
  unfold syncCall at reads
  split at reads
  next => contradiction
  next =>
    split at reads
    next quantity price filled _ _ _ =>
      obtain rfl := Option.some.inj reads
      change ∃ cached, (m.syncOrder _ _ price quantity _ filled).orders _ = some cached ∧ _
      cases known : m.orders (order.optValue print "order_id" "") with
      | none =>
          rw [syncOrder_unknown _ _ _ _ _ known, if_pos rfl]
          exact ⟨_, rfl, rfl⟩
      | some cached =>
          rw [syncOrder_cached _ _ _ _ _ cached known, if_pos rfl]
          exact ⟨_, rfl, rfl⟩
    next => contradiction

theorem updateOrder_caches {order : Members}
    (known : (m.orders (order.optValue print "order_id" "")).isSome = true) :
    ∃ cached, (ConnectionORDWS.updateOrder print m order).orders
        (order.optValue print "order_id" "") = some cached ∧
      cached.status = orderStatus (order.optValue print "status" "") := by
  obtain ⟨cached, known⟩ := Option.isSome_iff_exists.mp known
  change ∃ cached, (m.updateOrder _ _ _).orders _ = some cached ∧ _
  rw [updateOrder_cached _ _ _ _ _ cached known, if_pos rfl]
  exact ⟨_, rfl, rfl⟩

def orderWith (status : String) : Members :=
  [("order_id", .scalar "1"), ("status", .scalar status)]

theorem orderWith_synced (status : String) :
    (syncCall print (orderWith status)).isSome = true := by
  have zero : stod "0" = some 0 := by decide +kernel
  have orderId : (orderWith status).optValue print "order_id" "" = "1" := rfl
  have size : (orderWith status).optValue print "size" "0" = "0" := rfl
  have price : (orderWith status).optValue print "price" "0" = "0" := rfl
  have filledSize : (orderWith status).optValue print "filled_size" "0" = "0" := rfl
  unfold syncCall
  rw [orderId, size, price, filledSize, zero]
  rfl

/-- Only of these two names do the handlers make something else than `TranslateOrderStatus`. -/
theorem sameStatus_iff (status : String) :
    SameStatus print status ↔ status ≠ "CANCELED" ∧ status ≠ "EXPIRED" := by
  rw [← ordStatus_orderStatus_iff]
  constructor
  · intro same
    obtain ⟨cached, stored, agrees⟩ := same.snapshot ⟨fun _ => none, fun _ => 0⟩
      (orderWith status) rfl (orderWith_synced print status)
    obtain ⟨cached', stored', translated⟩ := syncOrder_caches print ⟨fun _ => none, fun _ => 0⟩
      (orderWith_synced print status)
    obtain rfl : cached = cached' := Option.some.inj (stored.symm.trans stored')
    rw [← agrees, translated]
    rfl
  · intro agrees
    constructor
    · rintro m order rfl synced
      obtain ⟨cached, stored, translated⟩ := syncOrder_caches print m synced
      exact ⟨cached, stored, by rw [translated, agrees]⟩
    · rintro m order rfl known
      obtain ⟨cached, stored, translated⟩ := updateOrder_caches print m known
      exact ⟨cached, stored, by rw [translated, agrees]⟩

end Handlers

def oneNew : OrderManager := ⟨fun _ => some ⟨"1", .buy, 1, 1, 0, .new⟩, fun _ => 0⟩

theorem expired_isNew :
    ¬ ∀ (print : Json → String) (status : String), SameStatus print status := by
  intro always
  obtain ⟨cached, stored, agrees⟩ :=
    (always (fun _ => "") "EXPIRED").update oneNew (orderWith "EXPIRED") rfl rfl
  have new : cached.status = .new := by
    rw [← Option.some.inj stored]
    rfl
  rw [new] at agrees
  contradiction

end SpotGridBot.Coinbase
