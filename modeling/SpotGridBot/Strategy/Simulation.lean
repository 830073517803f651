import SpotGridBot.Strategy.Moves

namespace SpotGridBot.Strategy
open Utils SpotGridBot.Core Runs

namespace GridStrategy
variable {cfg : GridConfig} {s s₁ s' : GridStrategy}

@[simp] theorem placed_remove (orderId i : OrderId) :
    (s.remove orderId).placed i = s.placed i := by
  simp [remove, placed, Record.places]

theorem ledger_remove (orderId i : OrderId) :
    (s.remove orderId).ledger i =
      s.ledger i ++ if orderId = i then
        (s.orderManager.orders orderId).toList.map Entry.left else [] := by
  rw [ledger_append s (.left orderId (s.orderManager.orders orderId)) rfl]
  simp only [Record.entry]
  split
  · cases s.orderManager.orders orderId with
    | none => rfl
    | some => rfl
  · rfl

theorem wellFormed_remove (wf : s.WellFormed) (orderId : OrderId) :
    (s.remove orderId).WellFormed where
  nodup := wf.nodup.filter _
  tracked i tracked := by
    rw [placed_remove]
    exact wf.tracked i (List.mem_of_mem_filter tracked)
  placed i placed := wf.placed i ((placed_remove orderId i).symm.trans placed)
  mentioned i mentioned := by
    cases cached : s.orderManager.orders i with
    | some order => simp [remove, cached]
    | none =>
        rw [ledger_remove] at mentioned
        have before : s.ledger i ≠ [] := by
          by_cases same : orderId = i
          · subst same
            simpa [cached] using mentioned
          · simpa [same] using mentioned
        simpa [cached] using wf.mentioned i before
  known i known := by
    by_cases same : i = orderId
    · simp [remove, same] at known
    · exact wf.known i (by simpa [remove, same] using known)

theorem account_remove (orderId i : OrderId) :
    (s.remove orderId).account i =
      (s.account i).map fun a => if i = orderId then a.leave else a := by
  cases here : s.account i with
  | none =>
      rw [account_eq_none] at here
      rw [Option.map_none, account_eq_none, placed_remove]
      exact here
  | some a =>
      obtain ⟨placed, order, cached, rfl⟩ := s.account_eq_some.mp here
      rw [Option.map_some, account_eq_some]
      refine ⟨(placed_remove orderId i).trans placed, order, cached, ?_⟩
      simp only [accountOf, ledger_remove]
      by_cases same : i = orderId
      · subst same
        simp [remove, details, knownFilled, Account.leave, cached]
      · simp [remove, details, knownFilled, same, Ne.symm same]

theorem removeAll_spec (orderIds : List OrderId) (nodup : orderIds.Nodup) (wf : s.WellFormed) :
    (s.removeAll orderIds).WellFormed ∧
    (∀ i, (s.removeAll orderIds).account i =
      (s.account i).map fun a => if i ∈ orderIds then a.leave else a) := by
  induction orderIds generalizing s with
  | nil => exact ⟨wf, fun i => by simp [removeAll]⟩
  | cons id ids ih =>
      obtain ⟨unseen, nodup⟩ := List.nodup_cons.mp nodup
      obtain ⟨wf', accounts⟩ := ih nodup (wellFormed_remove wf id)
      refine ⟨wf', fun i => (accounts i).trans ?_⟩
      rw [account_remove, Option.map_map]
      congr 1
      funext a
      by_cases same : i = id
      · subst same
        simp [unseen]
      · simp [same]

theorem checkFilledOrders_spec (cfg : GridConfig) (wf : s.WellFormed)
    (fresh : FreshReplies s.orderManager s.replies)
    (answers : s.activeOrders.length ≤ s.replies.length) :
    ∃ s', s.checkFilledOrders cfg = .done s' ∧ s'.WellFormed ∧
      (∀ i a, s.account i = some a →
        s'.account i = some (a.move cfg (.pass s.orderManager.balance))) ∧
      (∀ i a, s.account i = none → s'.account i = some a → a.Born) := by
  have opened : WellFormed { s with toRemove := [] } :=
    ⟨wf.nodup, wf.tracked, wf.placed, wf.mentioned, wf.known⟩
  obtain ⟨s₁, visited, moved⟩ := moved_visits cfg s.activeOrders wf.nodup opened fresh
    (List.Subset.refl _) answers
  have removed : s₁.toRemove = s.activeOrders.filter s.closes := moved.toRemove
  obtain ⟨wf', accounts⟩ := removeAll_spec s₁.toRemove (by rw [removed]; exact wf.nodup.filter _)
    moved.wellFormed
  refine ⟨{ s₁.removeAll s₁.toRemove with toRemove := [] },
    by simp only [checkFilledOrders, visited, Outcome.bind_done],
    ⟨wf'.nodup, wf'.tracked, wf'.placed, wf'.mentioned, wf'.known⟩, ?_, ?_⟩
  · intro i a here
    refine (accounts i).trans ?_
    rw [moved.old i a here, removed]
    have tracked := account_tracked here
    have closes : s.closes i = true ↔ Closed a.order := by simp [closes, account_order here]
    by_cases active : i ∈ s.activeOrders
    · by_cases closed : Closed a.order
      · simp [Account.move, Account.pass, active, tracked.mpr active, closes.mpr closed, closed]
      · simp [Account.move, Account.pass, active, tracked.mpr active, closes, closed]
    · have untracked : a.tracked = false := by simpa [active] using tracked
      simp [Account.move, active, untracked]
  · intro i a absent here
    have inactive : i ∉ s.activeOrders := by
      intro active
      have cached := wf.placed i (wf.tracked i active)
      simp [s.account_eq_none.mp absent (wf.tracked i active)] at cached
    have before : s₁.account i = some a := by
      have after := (accounts i).symm.trans here
      simpa [removed, inactive] using after
    exact moved.new i a absent before

theorem account_none (wf : s.WellFormed) {i : OrderId} (absent : s.account i = none) :
    s.placed i = false := by
  by_contra placed
  simp only [Bool.not_eq_false] at placed
  simpa [s.account_eq_none.mp absent placed] using wf.placed i placed

theorem WellFormed.cache (wf : s.WellFormed) {m : OrderManager}
    (kept : ∀ i, (s.orderManager.orders i).isSome → (m.orders i).isSome) :
    WellFormed { s with orderManager := m } where
  nodup := wf.nodup
  tracked := wf.tracked
  placed i placed := kept i (wf.placed i placed)
  mentioned i mentioned := kept i (wf.mentioned i mentioned)
  known i known := kept i (wf.known i known)

theorem account_cache (wf : s.WellFormed) {m : OrderManager} {g : OrderId → Order → Order}
    (cache : ∀ i order, s.orderManager.orders i = some order → m.orders i = some (g i order))
    (i : OrderId) :
    GridStrategy.account { s with orderManager := m } i =
      (s.account i).map fun a => { a with order := g i a.order } := by
  cases here : s.account i with
  | none =>
      have unplaced := account_none wf here
      rw [Option.map_none, account_eq_none]
      intro placed
      exact absurd (unplaced.symm.trans placed) (by simp)
  | some a =>
      obtain ⟨placed, order, cached, rfl⟩ := s.account_eq_some.mp here
      rw [Option.map_some, account_eq_some]
      exact ⟨placed, g i order, cache i order cached, rfl⟩

section Report
variable {orderId : OrderId} {status : OrderStatus} {filled : ℚ} {m : OrderManager}

theorem report_spec (wf : s.WellFormed)
    (cache : ∀ i order, s.orderManager.orders i = some order →
      m.orders i = some (if i = orderId then { order with status, filled } else order)) :
    WellFormed { s.report orderId status filled with orderManager := m } ∧
    ∀ i, GridStrategy.account { s.report orderId status filled with orderManager := m } i =
      (s.account i).map fun a => if i = orderId then a.report status filled else a := by
  have kept : ∀ i, (s.orderManager.orders i).isSome → (m.orders i).isSome := by
    intro i cached
    obtain ⟨order, present⟩ := Option.isSome_iff_exists.mp cached
    simp [cache i order present]
  cases cached : s.orderManager.orders orderId with
  | none =>
      simp only [report, cached]
      refine ⟨wf.cache kept, fun i => ?_⟩
      rw [account_cache wf cache]
      cases here : s.account i with
      | none => rfl
      | some a =>
          have other : i ≠ orderId := by
            rintro rfl
            simp [account_order here] at cached
          simp [other]
  | some order =>
      simp only [report, cached]
      have recorded : (s.record (.report orderId status filled)).WellFormed := by
        apply wellFormed_record wf fun _ => rfl
        intro i mentioned
        by_cases same : orderId = i
        · simp [← same, cached]
        · simp [Record.entry, same] at mentioned
      refine ⟨recorded.cache kept, fun i => ?_⟩
      rw [account_cache recorded cache, account_record rfl, Option.map_map]
      congr 1
      funext a
      by_cases same : i = orderId
      · subst same
        simp [Record.entry, Account.report, Account.write]
      · simp [Record.entry, same, Ne.symm same, Account.write]

theorem report_moves (wf : s.WellFormed)
    (cache : ∀ i order, s.orderManager.orders i = some order →
      m.orders i = some (if i = orderId then { order with status, filled } else order)) :
    WellFormed { s.report orderId status filled with orderManager := m } ∧
    (∀ i a, s.account i = some a →
      GridStrategy.account { s.report orderId status filled with orderManager := m } i =
        some (a.move cfg (if i = orderId then .report status filled else .idle))) ∧
    (∀ i a, s.account i = none →
      GridStrategy.account { s.report orderId status filled with orderManager := m } i = some a →
        a.Born) := by
  obtain ⟨wf', accounts⟩ := report_spec wf cache
  refine ⟨wf', fun i a here => ?_, fun i a absent here => ?_⟩
  · refine (accounts i).trans ?_
    rw [here, Option.map_some]
    split <;> rfl
  · have none := (accounts i).symm.trans here
    simp [absent] at none

end Report

end GridStrategy

/-- What the runs of the strategy may contain: every placement succeeds under a fresh id, and an
update never lowers what an order has filled and never exceeds its quantity. -/
def Orderly (cfg : GridConfig) (s : GridStrategy) : Event → Prop
  | .start replies =>
      FreshReplies s.orderManager replies ∧
      cfg.levelsBelow.toNat + cfg.levelsAbove.toNat ≤ replies.length
  | .checkFilledOrders replies =>
      FreshReplies s.orderManager replies ∧ s.activeOrders.length ≤ replies.length
  | .updateOrder orderId _ filled =>
      ∀ order ∈ s.orderManager.orders orderId, order.filled ≤ filled ∧ filled ≤ order.quantity
  | .syncOrder orderId _ _ _ _ filled =>
      ∀ order ∈ s.orderManager.orders orderId, order.filled ≤ filled ∧ filled ≤ order.quantity
  | .setBalance _ _ => True

instance (cfg : GridConfig) (s : GridStrategy) : (e : Event) → Decidable (Orderly cfg s e)
  | .start _ => inferInstanceAs (Decidable (_ ∧ _))
  | .checkFilledOrders _ => inferInstanceAs (Decidable (_ ∧ _))
  | .updateOrder orderId _ _ =>
      inferInstanceAs (Decidable (∀ order ∈ s.orderManager.orders orderId, _ ≤ _ ∧ _ ≤ _))
  | .syncOrder orderId _ _ _ _ _ =>
      inferInstanceAs (Decidable (∀ order ∈ s.orderManager.orders orderId, _ ≤ _ ∧ _ ≤ _))
  | .setBalance _ _ => .isTrue trivial

def Event.effect (s : GridStrategy) (orderId : OrderId) : Event → AccountEvent
  | .start _ => .idle
  | .checkFilledOrders _ => .pass s.orderManager.balance
  | .updateOrder reported status filled =>
      if orderId = reported then .report status filled else .idle
  | .syncOrder reported _ _ _ status filled =>
      if orderId = reported then .report status filled else .idle
  | .setBalance _ _ => .idle

def Account.Allows (a : Account) : AccountEvent → Prop
  | .report _ filled => a.order.filled ≤ filled ∧ filled ≤ a.order.quantity
  | _ => True

theorem step_spec (cfg : GridConfig) {s : GridStrategy} {e : Event} (orderly : Orderly cfg s e)
    (wf : s.WellFormed) :
    (step cfg s e).WellFormed ∧
    (∀ i a, s.account i = some a →
      (step cfg s e).account i = some (a.move cfg (e.effect s i))) ∧
    (∀ i a, s.account i = none → (step cfg s e).account i = some a → a.Born) := by
  have supplied : ∀ replies, GridStrategy.WellFormed { s with replies := replies } := fun _ =>
    ⟨wf.nodup, wf.tracked, wf.placed, wf.mentioned, wf.known⟩
  cases e with
  | start replies =>
      obtain ⟨s', n, started, moved⟩ :=
        GridStrategy.moved_start cfg (supplied replies) orderly.1 orderly.2
      simp only [step, started, Outcome.state_done]
      exact ⟨moved.wellFormed, moved.old, moved.new⟩
  | checkFilledOrders replies =>
      obtain ⟨s', passed, wf', old, new⟩ :=
        GridStrategy.checkFilledOrders_spec cfg (supplied replies) orderly.1 orderly.2
      simp only [step, passed, Outcome.state_done]
      exact ⟨wf', old, new⟩
  | updateOrder orderId status filled =>
      exact GridStrategy.report_moves wf fun i order cached =>
        s.orderManager.updateOrder_cached orderId i status filled order cached
  | syncOrder orderId side price quantity status filled =>
      exact GridStrategy.report_moves wf fun i order cached =>
        s.orderManager.syncOrder_cached orderId i status filled order cached side price quantity
  | setBalance currency amount =>
      exact ⟨wf.cache fun _ cached => cached, fun i a here => here,
        fun i a absent here => absurd (absent.symm.trans here) (by simp)⟩

theorem independent (cfg : GridConfig) :
    Independent (step cfg) (Orderly cfg) GridStrategy.WellFormed GridStrategy.account
      (fun s e i => e.effect s i) (Account.move cfg) Account.Allows Account.Born where
  keeps s e orderly wf := (step_spec cfg orderly wf).1
  moves s e i a orderly wf here := (step_spec cfg orderly wf).2.1 i a here
  creates s e i a orderly wf absent here := (step_spec cfg orderly wf).2.2 i a absent here
  allows s e i a orderly wf here := by
    have cached := GridStrategy.account_order here
    cases e with
    | start replies => trivial
    | checkFilledOrders replies => trivial
    | updateOrder orderId status filled =>
        simp only [Event.effect]
        split
        next same => exact orderly a.order (same ▸ cached)
        next => trivial
    | syncOrder orderId side price quantity status filled =>
        simp only [Event.effect]
        split
        next same => exact orderly a.order (same ▸ cached)
        next => trivial
    | setBalance currency amount => trivial

def Accounted (P : Account → Prop) (s : GridStrategy) : Prop :=
  ∀ i, s.placed i = true → ∃ a, s.account i = some a ∧ P a

def Guarded (guard : Account → AccountEvent → Prop) (s : GridStrategy) (e : Event) : Prop :=
  ∀ i a, s.account i = some a → guard a (e.effect s i)

theorem accounted_iff_parts {s : GridStrategy} (wf : s.WellFormed) {P : Account → Prop} :
    Accounted P s ↔ Parts GridStrategy.account P s := by
  constructor
  · intro accounted i a here
    obtain ⟨a', here', holds⟩ := accounted i (GridStrategy.account_placed here)
    obtain rfl : a = a' := Option.some.inj (here.symm.trans here')
    exact holds
  · intro parts i placed
    cases here : s.account i with
    | none => simp [GridStrategy.account_none wf here] at placed
    | some a => exact ⟨a, rfl, parts i a here⟩

theorem always_accounted_iff (cfg : GridConfig) {Inv P : Account → Prop}
    {guard : Account → AccountEvent → Prop} (birth : ∀ a : Account, a.Born → Inv a)
    (keep : ∀ a k, a.Allows k → Inv a → guard a k → Inv (a.move cfg k))
    (sound : ∀ a, Inv a → P a)
    (breaks : ∀ a k, a.Allows k → Inv a → ¬ guard a k → ¬ P (a.move cfg k))
    {m : OrderManager} {events : List Event}
    (orderly : Along (step cfg) (Orderly cfg) { orderManager := m } events) :
    Always (step cfg) (Accounted P) { orderManager := m } events ↔
      Along (step cfg) (Guarded guard) { orderManager := m } events := by
  have initial : GridStrategy.WellFormed { orderManager := m } :=
    ⟨List.nodup_nil, by simp, by simp [GridStrategy.placed], by simp [GridStrategy.ledger], by simp⟩
  have noAccount : Parts GridStrategy.account Inv { orderManager := m } := by
    intro i a here
    simp [GridStrategy.account, GridStrategy.placed] at here
  have formed := always_of_invariant (independent cfg).keeps initial orderly
  have exact := (independent cfg).always_iff_along birth keep sound breaks initial noAccount orderly
  exact (formed.congr fun s wf => accounted_iff_parts wf).trans exact

end SpotGridBot.Strategy
