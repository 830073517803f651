import SpotGridBot.Core.OrderManager
import SpotGridBot.Lib.Runs

namespace SpotGridBot.Core
open Utils Runs

inductive Call where
  | update (orderId : OrderId) (status : OrderStatus) (filled : ℚ)
  | sync (orderId : OrderId) (side : Side) (price quantity : ℚ) (status : OrderStatus) (filled : ℚ)
deriving DecidableEq, Repr

def OrderStatus.terminal : OrderStatus → Bool
  | .filled | .canceled | .rejected => true
  | .new | .partiallyFilled => false

namespace Call

def orderId : Call → OrderId
  | update orderId _ _ => orderId
  | sync orderId _ _ _ _ _ => orderId

def status : Call → OrderStatus
  | update _ status _ => status
  | sync _ _ _ _ status _ => status

def filled : Call → ℚ
  | update _ _ filled => filled
  | sync _ _ _ _ _ filled => filled

def created : Call → Option Order
  | update _ _ _ => none
  | sync orderId side price quantity status filled =>
      some ⟨orderId, side, price, quantity, filled, status⟩

end Call

namespace Order
variable (order : Order)

def report (call : Call) : Order := { order with status := call.status, filled := call.filled }

def lastReport (calls : List Call) : Order :=
  match calls.getLast? with
  | some call => order.report call
  | none => order

theorem lastReport_append {earlier earlier' calls : List Call} (later : calls ≠ []) :
    order.lastReport (earlier ++ calls) = order.lastReport (earlier' ++ calls) := by
  unfold lastReport
  rw [List.getLast?_append_of_ne_nil _ later, List.getLast?_append_of_ne_nil _ later]

theorem lastReport_cons (call : Call) (calls : List Call) :
    order.lastReport (call :: calls) = (order.report call).lastReport calls := by
  unfold lastReport
  rw [List.getLast?_cons]
  cases calls.getLast? with
  | none => rfl
  | some last => rfl

def Advances (order later : Order) : Prop :=
  (order.status.terminal = true → later.status.terminal = true) ∧ order.filled ≤ later.filled

theorem Advances.refl (order : Order) : order.Advances order := ⟨fun terminal => terminal, le_rfl⟩

theorem Advances.trans {first second third : Order} (earlier : first.Advances second)
    (later : second.Advances third) : first.Advances third :=
  ⟨later.1 ∘ earlier.1, earlier.2.trans later.2⟩

end Order

def record : Option Order → Call → Option Order
  | some order, call => some (order.report call)
  | none, call => call.created

theorem foldl_record_cached (order : Order) (calls : List Call) :
    calls.foldl record (some order) = some (order.lastReport calls) := by
  induction calls generalizing order with
  | nil => rfl
  | cons call calls ih => rw [List.foldl_cons, record, ih, Order.lastReport_cons]

theorem foldl_record (cached : Option Order) (calls : List Call) :
    calls.foldl record cached =
      (cached <|> calls.findSome? Call.created).map fun order => order.lastReport calls := by
  cases cached with
  | some order => exact foldl_record_cached order calls
  | none =>
      induction calls with
      | nil => rfl
      | cons call calls ih =>
          rw [List.foldl_cons, List.findSome?_cons]
          cases call with
          | update orderId status filled =>
              refine ih.trans ?_
              cases calls with
              | nil => rfl
              | cons later calls => simp [Call.created, Order.lastReport]
          | sync orderId side price quantity status filled =>
              have last := Order.lastReport_cons ⟨orderId, side, price, quantity, filled, status⟩
                (.sync orderId side price quantity status filled) calls
              exact (foldl_record_cached _ calls).trans (congrArg some last.symm)

namespace OrderManager
variable (m : OrderManager) (calls : List Call)

def receive (m : OrderManager) : Call → OrderManager
  | .update orderId status filled => m.updateOrder orderId status filled
  | .sync orderId side price quantity status filled =>
      m.syncOrder orderId side price quantity status filled

theorem receive_orders (call : Call) (orderId : OrderId) :
    (m.receive call).orders orderId =
      if call.orderId = orderId then record (m.orders orderId) call else m.orders orderId := by
  cases cached : m.orders orderId with
  | none =>
      cases call with
      | update i status filled =>
          rw [receive, m.updateOrder_unknown i orderId status filled cached]
          simp [record, Call.created]
      | sync i side price quantity status filled =>
          rw [receive, m.syncOrder_unknown i orderId status filled cached]
          simp only [Call.orderId, record, Call.created, eq_comm]
  | some order =>
      cases call with
      | update i status filled =>
          rw [receive, m.updateOrder_cached i orderId status filled order cached, apply_ite some]
          simp only [Call.orderId, record, eq_comm]
          rfl
      | sync i side price quantity status filled =>
          rw [receive, m.syncOrder_cached i orderId status filled order cached, apply_ite some]
          simp only [Call.orderId, record, eq_comm]
          rfl

def callsFor (orderId : OrderId) : List Call := calls.filter fun call => call.orderId = orderId

theorem run_orders (orderId : OrderId) : (run receive m calls).orders orderId =
    (m.orders orderId <|> (callsFor calls orderId).findSome? Call.created).map fun order =>
      order.lastReport (callsFor calls orderId) := by
  rw [← foldl_record]
  exact run_view (fun m call orderId => m.receive_orders call orderId) m calls orderId

@[simp] theorem receive_balance (call : Call) : (m.receive call).balance = m.balance := by
  cases call with
  | update orderId status filled =>
      simp only [receive, updateOrder]
      split <;> rfl
  | sync orderId side price quantity status filled =>
      simp only [receive, syncOrder]
      split <;> rfl

theorem run_balance : (run receive m calls).balance = m.balance := by
  induction calls generalizing m with
  | nil => rfl
  | cons call calls ih => rw [run_cons, ih, receive_balance]

def NeverRegresses : Prop :=
  ∀ earlier later, earlier ++ later <+: calls → ∀ orderId before after,
    (run receive m earlier).orders orderId = some before →
    (run receive m (earlier ++ later)).orders orderId = some after → before.Advances after

def Forward (call : Call) : Prop :=
  ∀ order, m.orders call.orderId = some order → order.Advances (order.report call)

theorem Forward.advances {call : Call} (forward : m.Forward call) {orderId : OrderId}
    {before : Order} (cached : m.orders orderId = some before) :
    ∃ after, (m.receive call).orders orderId = some after ∧ before.Advances after := by
  rw [receive_orders, cached]
  by_cases here : call.orderId = orderId
  · subst here
    exact ⟨before.report call, by simp [record], forward before cached⟩
  · exact ⟨before, by simp [here], .refl before⟩

theorem advances_of_forward (forward : Along receive Forward m calls) {orderId : OrderId}
    {before : Order} (cached : m.orders orderId = some before) :
    ∃ after, (run receive m calls).orders orderId = some after ∧ before.Advances after := by
  induction calls generalizing m before with
  | nil => exact ⟨before, cached, .refl before⟩
  | cons call calls ih =>
      obtain ⟨next, cached', first⟩ := forward.1.advances m cached
      obtain ⟨after, last, rest⟩ := ih (m.receive call) forward.2 cached'
      exact ⟨after, last, first.trans rest⟩

/-- The last call for an order decides what is cached of it, so that the life of the orders goes
back in the runs in which a call takes an order back, and in no others. -/
theorem lastReport_wins :
    (∀ orderId, (run receive m calls).orders orderId =
      (m.orders orderId <|> (callsFor calls orderId).findSome? Call.created).map fun order =>
        order.lastReport (callsFor calls orderId)) ∧
    (m.NeverRegresses calls ↔ Along receive Forward m calls) := by
  refine ⟨m.run_orders calls, ?_, ?_⟩
  · intro monotone
    induction calls generalizing m with
    | nil => trivial
    | cons call calls ih =>
        constructor
        · intro order cached
          apply monotone [] [call] (by simp) call.orderId order _ cached
          simp [receive_orders, cached, record]
        · apply ih
          intro earlier later isPrefix
          exact monotone (call :: earlier) later (List.cons_prefix_cons.mpr ⟨rfl, isPrefix⟩)
  · intro forward earlier later isPrefix orderId before after cached cached'
    obtain ⟨rest, rfl⟩ := isPrefix
    rw [run_append] at cached'
    have forward := (along_append.mp (along_append.mp forward).1).2
    obtain ⟨after', last, advances⟩ :=
      (run receive m earlier).advances_of_forward later forward cached
    obtain rfl : after' = after := Option.some.inj (last.symm.trans cached')
    exact advances

def lateOpen : List Call := [.sync "7" .buy 100 10 .filled 10, .update "7" .new 0]

theorem lateOpen_regresses : ¬ NeverRegresses ⟨fun _ => none, fun _ => 0⟩ lateOpen := by
  intro monotone
  have advances := monotone [.sync "7" .buy 100 10 .filled 10] [.update "7" .new 0]
    List.prefix_rfl "7" ⟨"7", .buy, 100, 10, 10, .filled⟩ ⟨"7", .buy, 100, 10, 0, .new⟩
    (by decide +kernel) (by decide +kernel)
  exact absurd (advances.1 rfl) (by decide)

end OrderManager

end SpotGridBot.Core
