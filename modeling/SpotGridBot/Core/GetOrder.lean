import SpotGridBot.Core.CancelOrder
import SpotGridBot.Core.JSONDocument

namespace SpotGridBot.Core
open Utils

/-- `order_status`; `none` is the `std::invalid_argument`. -/
def orderStatus (status : String) : Option OrderStatus :=
  if status = "NEW" then some .new
  else if status = "PARTIALLY_FILLED" then some .partiallyFilled
  else if status = "FILLED" then some .filled
  else if status = "CANCELED" then some .canceled
  else if status = "REJECTED" then some .rejected
  else none

inductive QueryReply where
  -- The request fails: `QueryOrder` throws.
  | lost
  -- Neither a REST nor a WebSocket connection: nothing is asked.
  | unknownConnection
  | webSocket
  -- `QueryOrder` answers; `none` when `JSONDocument` throws on the text.
  | rest (document : Option Members)

def QueryReply.response : QueryReply → Option Members
  | .rest document => document
  | _ => none

/-- `convert<std::string>` of a nested value, `convert<double>`, what `operator[]` finds in an element
of a converted array, and the `double` that the exact result of an operation is rounded to. -/
structure Conversions where
  print : Json → String
  toDouble : Json → Option ℚ
  struct : Json → Option Members
  nearest : ℚ → ℚ

namespace Conversions
variable (c : Conversions) (response : Members)

def success : Option String := JSONDocument.getValue (Members.convert c.print) "" response "success"

def status : Option OrderStatus :=
  (JSONDocument.getValue (Members.convert c.print) "" response "status").bind orderStatus

def filledSize : Option ℚ := JSONDocument.getValue c.toDouble 0 response "filled_size"

end Conversions

namespace OrderManager
variable (c : Conversions) (m : OrderManager) (orderId : OrderId)

/-- What the call returns, `none` for an exception, and the cache it leaves. -/
def getOrder (reply : QueryReply) : Option (Option Order) × OrderManager :=
  match m.orders orderId with
  | none => (some none, m)
  | some order =>
      match reply with
      | .lost => (none, m)
      | .unknownConnection => (some none, m)
      | .webSocket => (some (some order), m)
      | .rest none => (none, m)
      | .rest (some response) =>
          match c.success response with
          | none => (none, m)
          | some success =>
              if success = "true" then
                match c.status response with
                | none => (none, m)
                | some status =>
                    let order := { order with status }
                    let m := m.store orderId order
                    match c.filledSize response with
                    | none => (none, m)
                    | some filled =>
                        let order := { order with filled }
                        (some (some order), m.store orderId order)
              else (some none, m)

structure GetsAtomically (reply : QueryReply) : Prop where
  unchanged : (∀ order, (m.getOrder c orderId reply).1 ≠ some (some order)) →
    (m.getOrder c orderId reply).2 = m
  updated : ∀ order, (m.getOrder c orderId reply).1 = some (some order) →
    ∀ response, reply.response = some response →
    ∃ cached, (m.getOrder c orderId reply).2.orders orderId = some cached ∧
      c.status response = some cached.status ∧ c.filledSize response = some cached.filled

def CutShort (reply : QueryReply) : Prop :=
  ∃ order response status, m.orders orderId = some order ∧ reply.response = some response ∧
    c.success response = some "true" ∧ c.status response = some status ∧
    status ≠ order.status ∧ c.filledSize response = none

theorem store_eq_self {order : Order} :
    m.store orderId order = m ↔ m.orders orderId = some order := by
  constructor
  · intro same
    rw [← same]
    exact Function.update_self ..
  · intro cached
    apply OrderManager.ext
    · exact Function.update_eq_self_iff.mpr cached.symm
    · rfl

section Reply
variable {c m orderId} {reply : QueryReply} {order : Order} {response : Members}

theorem getsAtomically_of_unknown (unknown : m.orders orderId = none) :
    m.GetsAtomically c orderId reply := by
  have nothing : m.getOrder c orderId reply = (some none, m) := by simp [getOrder, unknown]
  constructor
  · simp [nothing]
  · simp [nothing]

theorem getsAtomically_of_silent (silent : reply.response = none) :
    m.GetsAtomically c orderId reply := by
  refine ⟨fun _ => ?_, fun order _ response answered => by simp [silent] at answered⟩
  unfold getOrder
  cases m.orders orderId with
  | none => rfl
  | some order =>
      cases reply with
      | lost => rfl
      | unknownConnection => rfl
      | webSocket => rfl
      | rest document =>
          obtain rfl : document = none := silent
          rfl

theorem getsAtomically_of_unread (cached : m.orders orderId = some order)
    (unread : c.success response ≠ some "true" ∨ c.status response = none) :
    m.GetsAtomically c orderId (.rest (some response)) := by
  have left : (m.getOrder c orderId (.rest (some response)) = (none, m)) ∨
      (m.getOrder c orderId (.rest (some response)) = (some none, m)) := by
    simp only [getOrder, cached]
    cases success : c.success response with
    | none => exact .inl rfl
    | some text =>
        by_cases accepted : text = "true"
        · have none : c.status response = none := by simpa [success, accepted] using unread
          simp [accepted, none]
        · simp [accepted]
  rcases left with threw | nothing
  · constructor
    · simp [threw]
    · simp [threw]
  · constructor
    · simp [nothing]
    · simp [nothing]

theorem getsAtomically_of_read {status : OrderStatus} (cached : m.orders orderId = some order)
    (success : c.success response = some "true") (named : c.status response = some status) :
    m.GetsAtomically c orderId (.rest (some response)) ↔
      (status ≠ order.status → c.filledSize response ≠ none) := by
  have got : m.getOrder c orderId (.rest (some response)) =
      match c.filledSize response with
      | none => (none, m.store orderId { order with status })
      | some filled => (some (some { order with status, filled }),
          m.store orderId { order with status, filled }) := by
    simp only [getOrder, cached, success, named, if_true]
    cases c.filledSize response with
    | none => rfl
    | some filled => simp [store]
  cases size : c.filledSize response with
  | none =>
      have threw : m.getOrder c orderId (.rest (some response)) =
          (none, m.store orderId { order with status }) := by rw [got, size]
      have same : m.store orderId { order with status } = m ↔ status = order.status := by
        rw [store_eq_self, cached, Option.some_inj]
        constructor
        · exact fun eq => (congrArg Order.status eq).symm
        · rintro rfl
          rfl
      constructor
      · intro atomic other
        have unchanged := atomic.unchanged (by simp [threw])
        rw [threw] at unchanged
        exact absurd (same.mp unchanged) other
      · intro readable
        refine ⟨fun _ => ?_, by simp [threw]⟩
        rw [threw]
        by_contra written
        exact readable (mt same.mpr written) rfl
  | some filled =>
      have answered : m.getOrder c orderId (.rest (some response)) =
          (some (some { order with status, filled }),
            m.store orderId { order with status, filled }) := by rw [got, size]
      refine ⟨fun _ _ => by simp, fun _ => ⟨fun none => ?_, fun returned _ response' same => ?_⟩⟩
      · exact absurd (congrArg Prod.fst answered) (none _)
      · obtain rfl : response = response' := by simpa [QueryReply.response] using same
        refine ⟨{ order with status, filled }, ?_, named, size⟩
        rw [answered]
        exact Function.update_self ..

end Reply

/-- A query is atomic unless its response has a new status and a `filled_size` that is no number. -/
theorem getsAtomically_iff (reply : QueryReply) :
    m.GetsAtomically c orderId reply ↔ ¬ m.CutShort c orderId reply := by
  cases cached : m.orders orderId with
  | none =>
      have whole : m.GetsAtomically c orderId reply := getsAtomically_of_unknown cached
      simp [whole, CutShort, cached]
  | some order =>
      cases answered : reply.response with
      | none =>
          have whole : m.GetsAtomically c orderId reply := getsAtomically_of_silent answered
          simp [whole, CutShort, answered]
      | some response =>
          obtain rfl : reply = .rest (some response) := by
            cases reply with
            | rest document => exact congrArg _ answered
            | _ => simp [QueryReply.response] at answered
          by_cases success : c.success response = some "true"
          · cases named : c.status response with
            | none =>
                have whole : m.GetsAtomically c orderId (.rest (some response)) :=
                  getsAtomically_of_unread cached (.inr named)
                simp [whole, CutShort, answered, named]
            | some status =>
                rw [getsAtomically_of_read cached success named]
                simp [CutShort, cached, answered, success, named]
          · have whole : m.GetsAtomically c orderId (.rest (some response)) :=
              getsAtomically_of_unread cached (.inl success)
            simp [whole, CutShort, answered, success]

end OrderManager

def libraryConversions : Conversions where
  print
    | .array _ => "[\n]"
    | .object _ => "\x7b\n\x7d"
    | _ => ""
  toDouble
    | .scalar text => stod text
    | _ => none
  struct := Json.extract
  nearest := id

def signedValue : List Char → ℤ
  | '-' :: digits => -(Nat.ofDigitChars 10 digits 0 : ℤ)
  | digits => Nat.ofDigitChars 10 digits 0

def longOfText : Json → Option ℤ
  | .scalar text => some (signedValue text.toList)
  | _ => none

namespace OrderManager

def noNumber : QueryReply := .rest (some [("success", .scalar "true"), ("status", .scalar "FILLED"),
  ("filled_size", .scalar "n/a")])

theorem noNumber_writes_status :
    ¬ resting.GetsAtomically libraryConversions "1" noNumber ∧
    (resting.getOrder libraryConversions "1" noNumber).1 = none ∧
    ((resting.getOrder libraryConversions "1" noNumber).2.orders "1").map
      (fun order => (order.status, order.filled)) = some (.filled, 0) := by
  refine ⟨fun atomic => ?_, by decide +kernel, by decide +kernel⟩
  have threw : (resting.getOrder libraryConversions "1" noNumber).1 = none := by decide +kernel
  have unchanged := atomic.unchanged (by simp [threw])
  have written := congrArg (fun m => (m.orders "1").map Order.status) unchanged
  exact absurd written (by decide +kernel)

end OrderManager

end SpotGridBot.Core
