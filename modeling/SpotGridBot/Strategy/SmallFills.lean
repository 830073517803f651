import SpotGridBot.Strategy.Moves
import SpotGridBot.Strategy.Storage
import SpotGridBot.Strategy.Visits

namespace SpotGridBot.Strategy
open Utils SpotGridBot.Core Runs

def Record.partialHedge (orderId : OrderId) : Record → ℚ
  | .call (.partialFill parent) _ _ qty (some _) => if parent = orderId then qty else 0
  | _ => 0

def hedgedPartially (history : List Record) (orderId : OrderId) : ℚ :=
  (history.map (Record.partialHedge orderId)).sum

def NoDecline (history : List Record) : Prop := ∀ record ∈ history, record.declines = false

instance (history : List Record) : Decidable (NoDecline history) :=
  inferInstanceAs (Decidable (∀ record ∈ history, _))

def PlacesAll (cfg : GridConfig) (s : GridStrategy) : Event → Prop
  | .start replies => FreshReplies s.orderManager replies ∧
      cfg.levelsBelow.toNat + cfg.levelsAbove.toNat ≤ replies.length
  | .checkFilledOrders replies =>
      FreshReplies s.orderManager replies ∧ s.activeOrders.length ≤ replies.length
  | _ => True

instance (cfg : GridConfig) (s : GridStrategy) : (e : Event) → Decidable (PlacesAll cfg s e)
  | .start _ => inferInstanceAs (Decidable (_ ∧ _))
  | .checkFilledOrders _ => inferInstanceAs (Decidable (_ ∧ _))
  | .updateOrder _ _ _ => .isTrue trivial
  | .syncOrder _ _ _ _ _ _ => .isTrue trivial
  | .setBalance _ _ => .isTrue trivial

theorem hedgedPartially_append (history : List Record) (entry : Record) (i : OrderId) :
    hedgedPartially (history ++ [entry]) i = hedgedPartially history i + entry.partialHedge i := by
  simp [hedgedPartially]

theorem partialHedge_call (cause : Cause) (side : Side) (price qty : ℚ) (newId i : OrderId) :
    (Record.call cause side price qty (some newId)).partialHedge i =
      if cause.parent = some i then cause.newFill qty else 0 := by
  cases cause with
  | grid => simp [Record.partialHedge, Cause.parent]
  | filled parent => simp [Record.partialHedge, Cause.newFill]
  | partialFill parent => simp [Record.partialHedge, Cause.parent, Cause.newFill]

theorem NoDecline.of_append {history entries : List Record}
    (noDecline : NoDecline (history ++ entries)) : NoDecline history :=
  fun record member => noDecline record (List.mem_append_left _ member)

namespace GridStrategy
variable {cfg : GridConfig} {s s' : GridStrategy} {orderId : OrderId}

structure Accrued (s : GridStrategy) : Prop where
  cached : ∀ i ∈ s.activeOrders, (s.orderManager.orders i).isSome
  unknown : ∀ i, s.orderManager.orders i = none →
    s.knownFilled i = 0 ∧ hedgedPartially s.history i = 0
  known : NoDecline s.history → ∀ i ∈ s.activeOrders,
    s.knownFilled i = hedgedPartially s.history i

def UpToDate (s : GridStrategy) (orderId : OrderId) : Prop :=
  ∀ order, s.orderManager.orders orderId = some order → order.status = .partiallyFilled →
    Utils.round (order.filled - s.knownFilled orderId) = 0

namespace Accrued

theorem record (accrued : s.Accrued) (entry : Record) (none : ∀ i, entry.partialHedge i = 0)
    (orders : ∀ i, (s.orderManager.orders i).isSome → (s'.orderManager.orders i).isSome)
    (active : s'.activeOrders ⊆ s.activeOrders)
    (known : ∀ i, s'.orderManager.orders i = .none ∨ i ∈ s'.activeOrders →
      s'.knownFilled i = s.knownFilled i)
    (history : s'.history = s.history ++ [entry]) : s'.Accrued where
  cached i member := orders i (accrued.cached i (active member))
  unknown i absent := by
    have before : s.orderManager.orders i = .none := by
      by_contra present
      have cached := orders i (Option.isSome_iff_ne_none.mpr present)
      simp [absent] at cached
    rw [known i (.inl absent), history, hedgedPartially_append, none, add_zero]
    exact accrued.unknown i before
  known noDecline i member := by
    rw [history] at noDecline
    rw [known i (.inr member), history, hedgedPartially_append, none, add_zero]
    exact accrued.known noDecline.of_append i (active member)

section Visit
variable {s₁ : GridStrategy} {cause : Cause} {qty : ℚ}

theorem accept (accrued : s.Accrued) {newId : OrderId} {details : OrderDetails}
    (manager : s₁.orderManager = s.orderManager) (active : s₁.activeOrders = s.activeOrders)
    (history : s₁.history = s.history)
    (known : ∀ i, s₁.knownFilled i = s.knownFilled i +
      if cause.parent = some i then cause.newFill details.qty else 0)
    (cached : ∀ i, cause.parent = some i → (s.orderManager.orders i).isSome)
    (absent : s.orderManager.orders newId = none) : (s₁.accept cause newId details).Accrued := by
  have orders : (s₁.accept cause newId details).orderManager.orders = Function.update
      s.orderManager.orders newId
      (some ⟨newId, details.side, details.price, details.qty, 0, .new⟩) := by
    rw [accept_orders, manager]
  have appended : (s₁.accept cause newId details).history = s.history ++
      [.call cause details.side details.price details.qty (some newId)] := by
    rw [accept_history, history]
  have sums : ∀ i, hedgedPartially (s₁.accept cause newId details).history i =
      hedgedPartially s.history i + if cause.parent = some i then cause.newFill details.qty else 0 :=
    fun i => by rw [appended, hedgedPartially_append, partialHedge_call]
  have knows : ∀ i, (s₁.accept cause newId details).knownFilled i = s.knownFilled i +
      if cause.parent = some i then cause.newFill details.qty else 0 := known
  have stranger : ∀ i, s.orderManager.orders i = none → ¬ cause.parent = some i := by
    intro i unknown own
    simpa [unknown] using cached i own
  have tracked : (s₁.accept cause newId details).activeOrders = s.activeOrders ++ [newId] := by
    rw [accept_activeOrders, active]
  constructor
  · intro i member
    rw [orders, Function.update_apply]
    split
    · rfl
    next other =>
      rw [tracked] at member
      have old : i ∈ s.activeOrders := by simpa [other] using member
      exact accrued.cached i old
  · intro i unknown
    rw [orders, Function.update_apply] at unknown
    split at unknown
    · contradiction
    · rw [knows, sums, if_neg (stranger i unknown), add_zero, add_zero]
      exact accrued.unknown i unknown
  · intro noDecline i member
    rw [appended] at noDecline
    rw [knows, sums]
    congr 1
    rw [tracked] at member
    rcases List.mem_append.mp member with old | new
    · exact accrued.known noDecline.of_append i old
    · obtain rfl := List.mem_singleton.mp new
      obtain ⟨nothing, none⟩ := accrued.unknown i absent
      rw [nothing, none]

end Visit

end Accrued

theorem upToDate_of_not_due (notDue : s.due orderId = none) : s.UpToDate orderId := by
  intro order cached status
  by_contra newFill
  simp [due, cached, status, newFill] at notDue

theorem known_of_due {cause : Cause} {qty : ℚ} (due : s.due orderId = some (cause, qty))
    {order : Order} (cached : s.orderManager.orders orderId = some order)
    (status : order.status = .partiallyFilled) :
    s.knownFilled orderId + cause.newFill qty = order.filled := by
  obtain ⟨-, rfl, rfl⟩ : _ ∧ Cause.partialFill orderId = cause ∧
      order.filled - s.knownFilled orderId = qty := by
    simpa [GridStrategy.due, cached, status] using due
  exact add_sub_cancel _ _

structure Accrues (orderId : OrderId) (s s' : GridStrategy) : Prop where
  accrued : s'.Accrued
  fresh : FreshReplies s'.orderManager s'.replies
  answers : s.replies.length ≤ s'.replies.length + 1
  active : s.activeOrders ⊆ s'.activeOrders
  upToDate : ∀ i ∈ s'.activeOrders, i = orderId ∨ i ∉ s.activeOrders ∨ s.UpToDate i → s'.UpToDate i

theorem own_or_upToDate {i : OrderId} (tracked : i ∈ s.activeOrders)
    (upToDate : i = orderId ∨ i ∉ s.activeOrders ∨ s.UpToDate i) : i = orderId ∨ s.UpToDate i := by
  rcases upToDate with own | untracked | upToDate
  · exact .inl own
  · exact absurd tracked untracked
  · exact .inr upToDate

theorem Accrued.frame (accrued : s.Accrued)
    (orders : ∀ i, (s.orderManager.orders i).isSome → (s'.orderManager.orders i).isSome)
    (active : s'.activeOrders = s.activeOrders) (history : s'.history = s.history)
    (known : ∀ i, s'.knownFilled i = s.knownFilled i) : s'.Accrued where
  cached i member := orders i (accrued.cached i (active ▸ member))
  unknown i absent := by
    have before : s.orderManager.orders i = none := by
      by_contra present
      have cached := orders i (Option.isSome_iff_ne_none.mpr present)
      simp [absent] at cached
    rw [known, history]
    exact accrued.unknown i before
  known := by
    simp only [active, known, history]
    exact accrued.known

theorem Accrued.visit_idle (accrued : s.Accrued)
    (fresh : FreshReplies s.orderManager s.replies) (notDue : s.due orderId = none) :
    ∃ s', s.visit cfg orderId = .done s' ∧ Accrues orderId s s' := by
  obtain ⟨s', visited, idle, same⟩ := GridStrategy.visit_idle cfg notDue
  have known : ∀ i, s'.knownFilled i = s.knownFilled i := by
    intro i
    by_cases here : i = orderId
    · rw [here, same]
    · exact idle.known i here
  have settles : ∀ i, s'.UpToDate i ↔ s.UpToDate i := fun i => by
    simp only [UpToDate, idle.orderManager, known]
  refine ⟨s', visited, ?_⟩
  constructor
  · apply accrued.frame _ idle.activeOrders idle.history known
    rw [idle.orderManager]
    exact fun i cached => cached
  · rw [idle.orderManager, idle.replies]
    exact fresh
  · rw [idle.replies]
    exact Nat.le_succ _
  · exact fun i member => idle.activeOrders ▸ member
  · intro i member upToDate
    rw [idle.activeOrders] at member
    rw [settles]
    rcases own_or_upToDate member upToDate with rfl | upToDate
    · exact upToDate_of_not_due notDue
    · exact upToDate

section Due
variable {s₁ : GridStrategy} {cause : Cause} {qty : ℚ} (accrued : s.Accrued)
  (active : orderId ∈ s.activeOrders) (due : s.due orderId = some (cause, qty))
  (idle : Idle orderId (s.touchDetails orderId) s₁)
  (known : s₁.knownFilled orderId = s.knownFilled orderId + cause.newFill qty)

section Known
include due idle known

theorem known_visit (i : OrderId) : s₁.knownFilled i = s.knownFilled i +
    if cause.parent = some i then cause.newFill qty else 0 := by
  have own := due_parent due
  by_cases same : i = orderId
  · rw [same, known, if_pos own]
  · rw [idle.known i same, own, if_neg (by simpa using Ne.symm same), add_zero]
    rfl

theorem upToDate_visit {i : OrderId} (upToDate : i = orderId ∨ s.UpToDate i)
    (knows : s'.knownFilled i = s₁.knownFilled i)
    (orders : s'.orderManager.orders i = s.orderManager.orders i) : s'.UpToDate i := by
  intro order cached status
  rw [orders] at cached
  rw [knows]
  by_cases same : i = orderId
  · subst same
    rw [known, known_of_due due cached status, sub_self, Utils.round_zero]
  · rw [idle.known i same]
    exact upToDate.resolve_left same order cached status

end Known

include accrued active due

theorem parent_cached (i : OrderId) (own : cause.parent = some i) :
    (s.orderManager.orders i).isSome := by
  obtain rfl : orderId = i := Option.some.inj ((due_parent due).symm.trans own)
  exact accrued.cached orderId active

include idle known

theorem accrues_declined (fresh : FreshReplies s.orderManager s.replies) (marks : List OrderId) :
    Accrues orderId s { s₁.record (.declined cause qty) with
      toRemove := s₁.toRemove ++ marks } := by
  have manager : s₁.orderManager = s.orderManager := idle.orderManager
  have tracked : s₁.activeOrders = s.activeOrders := idle.activeOrders
  have history : s₁.history = s.history := idle.history
  have replies : s₁.replies = s.replies := idle.replies
  have knows := known_visit due idle known
  refine ⟨⟨?_, ?_, ?_⟩, ?_, ?_, ?_, ?_⟩
  · show ∀ i ∈ s₁.activeOrders, (s₁.orderManager.orders i).isSome
    rw [tracked, manager]
    exact accrued.cached
  · intro i unknown
    have absent : s.orderManager.orders i = none := manager ▸ unknown
    have stranger : ¬ cause.parent = some i := fun own => by
      simpa [absent] using parent_cached accrued active due i own
    obtain ⟨nothing, none⟩ := accrued.unknown i absent
    constructor
    · exact ((knows i).trans (by rw [if_neg stranger, add_zero])).trans nothing
    · show hedgedPartially (s₁.history ++ [.declined cause qty]) i = 0
      rw [hedgedPartially_append, history, none, zero_add]
      rfl
  · intro noDecline
    have declined := noDecline (.declined cause qty)
      (List.mem_append_right _ (List.mem_singleton_self _))
    contradiction
  · show FreshReplies s₁.orderManager s₁.replies
    rw [manager, replies]
    exact fresh
  · show s.replies.length ≤ s₁.replies.length + 1
    rw [replies]
    exact Nat.le_succ _
  · show s.activeOrders ⊆ s₁.activeOrders
    rw [tracked]
    exact List.Subset.refl _
  · intro i member upToDate
    have old : i ∈ s.activeOrders := tracked ▸ member
    exact upToDate_visit due idle known (own_or_upToDate old upToDate) rfl
      (congrArg (fun m => m.orders i) manager)

theorem accrues_accepted (fresh : FreshReplies s.orderManager s.replies)
    (answers : s.replies ≠ []) {newId : OrderId} (accepted : s.nextReply.acceptedId = some newId)
    (side : Side) (price : ℚ) (marks : List OrderId) :
    Accrues orderId s { s₁.accept cause newId ⟨side, price, qty⟩ with
      toRemove := s₁.toRemove ++ marks } := by
  have manager : s₁.orderManager = s.orderManager := idle.orderManager
  have tracked : s₁.activeOrders = s.activeOrders := idle.activeOrders
  have replies : s₁.replies = s.replies := idle.replies
  have absent : s.orderManager.orders newId = none := by
    obtain ⟨id, same, -, absent⟩ := fresh.next answers
    obtain rfl : id = newId := Option.some.inj (same.symm.trans accepted)
    exact absent
  have kept : (s₁.accept cause newId ⟨side, price, qty⟩).Accrued :=
    accrued.accept manager tracked idle.history (known_visit due idle known)
      (parent_cached accrued active due) absent
  constructor
  · exact kept.frame (fun _ cached => cached) rfl rfl fun _ => rfl
  · show FreshReplies (s₁.orderManager.store newId _) s₁.replies.tail
    rw [manager, replies]
    exact fresh.tail accepted _
  · show s.replies.length ≤ s₁.replies.tail.length + 1
    rw [replies, List.length_tail]
    omega
  · show s.activeOrders ⊆ s₁.activeOrders ++ [newId]
    rw [tracked]
    exact List.subset_append_left _ _
  · intro i member upToDate
    by_cases new : i = newId
    · intro order cached status
      have born : order.status = .new := by
        have stored : (⟨newId, side, price, qty, 0, .new⟩ : Order) = order := by
          simpa [new] using cached
        rw [← stored]
      simp [born] at status
    · have old : i ∈ s.activeOrders := by
        rw [← tracked]
        simpa [new] using member
      refine upToDate_visit due idle known (own_or_upToDate old upToDate) rfl ?_
      rw [← manager]
      simp [new]

end Due

theorem Accrued.visit (accrued : s.Accrued) (cfg : GridConfig)
    (fresh : FreshReplies s.orderManager s.replies) (answers : s.replies ≠ [])
    (active : orderId ∈ s.activeOrders) :
    ∃ s', s.visit cfg orderId = .done s' ∧ Accrues orderId s s' := by
  cases due : s.due orderId with
  | none => exact accrued.visit_idle fresh due
  | some hedged =>
      obtain ⟨cause, qty⟩ := hedged
      obtain ⟨s₁, marks, idle, known, visited⟩ := visit_due cfg due
      rw [visited]
      unfold Strategy.hedge
      split
      · obtain ⟨newId, accepted, -, -⟩ := fresh.next answers
        have replies : s₁.replies = s.replies := idle.replies
        have next : s₁.nextReply.acceptedId = some newId := by
          rw [nextReply, replies]
          exact accepted
        rw [s₁.placeAndTrack_accepted next]
        exact ⟨_, rfl, accrues_accepted accrued active due idle known fresh answers accepted _ _
          marks⟩
      · exact ⟨_, rfl, accrues_declined accrued active due idle known fresh marks⟩

structure Accruing (rest : List OrderId) (s : GridStrategy) : Prop where
  accrued : s.Accrued
  fresh : FreshReplies s.orderManager s.replies
  answers : rest.length ≤ s.replies.length
  active : rest ⊆ s.activeOrders
  upToDate : ∀ i ∈ s.activeOrders, i ∈ rest ∨ s.UpToDate i

theorem Accruing.visit {rest : List OrderId} (accruing : Accruing (orderId :: rest) s) :
    (s.visit cfg orderId).Ends (Accruing rest) fun _ => False := by
  obtain ⟨here, later⟩ := List.cons_subset.mp accruing.active
  have left := accruing.answers
  have answers : s.replies ≠ [] := by
    rintro none
    simp [none] at left
  obtain ⟨s', visited, accrues⟩ := accruing.accrued.visit cfg accruing.fresh answers here
  rw [visited]
  have fewer := accrues.answers
  constructor
  · exact accrues.accrued
  · exact accrues.fresh
  · simp only [List.length_cons] at left
    omega
  · exact List.Subset.trans later accrues.active
  · intro i member
    by_cases waiting : i ∈ rest
    · exact .inl waiting
    · apply Or.inr
      apply accrues.upToDate i member
      by_cases old : i ∈ s.activeOrders
      · rcases accruing.upToDate i old with visitedLater | upToDate
        · exact .inl ((List.mem_cons.mp visitedLater).resolve_right waiting)
        · exact .inr (.inr upToDate)
      · exact .inr (.inl old)

theorem Accrued.removeAll (accrued : s.Accrued) (orderIds : List OrderId)
    (upToDate : ∀ i ∈ s.activeOrders, s.UpToDate i) :
    (s.removeAll orderIds).Accrued ∧
      ∀ i ∈ (s.removeAll orderIds).activeOrders, (s.removeAll orderIds).UpToDate i := by
  induction orderIds generalizing s with
  | nil => exact ⟨accrued, upToDate⟩
  | cons orderId orderIds ih =>
      have known : ∀ i, i ≠ orderId → (s.remove orderId).knownFilled i = s.knownFilled i := by
        intro i other
        simp [GridStrategy.remove, knownFilled, other]
      apply ih (s := s.remove orderId)
      · apply accrued.record (.left orderId (s.orderManager.getOrderLocal orderId))
        · exact fun i => rfl
        · exact fun i cached => cached
        · exact fun i member => List.mem_of_mem_filter member
        · intro i reason
          by_cases same : i = orderId
          · rcases reason with unknown | active
            · rw [(accrued.unknown i unknown).1, same]
              simp [GridStrategy.remove, knownFilled]
            · simp [GridStrategy.remove, same] at active
          · exact known i same
        · rfl
      · intro i member order cached status
        obtain ⟨member, other⟩ := List.mem_filter.mp member
        have different : i ≠ orderId := by simpa using other
        rw [known i different]
        exact upToDate i member order cached status

theorem Accrued.pass (accrued : s.Accrued) (cfg : GridConfig)
    (fresh : FreshReplies s.orderManager s.replies)
    (answers : s.activeOrders.length ≤ s.replies.length) :
    (s.checkFilledOrders cfg).state.Accrued ∧
      ∀ i ∈ (s.checkFilledOrders cfg).state.activeOrders,
        (s.checkFilledOrders cfg).state.UpToDate i := by
  have opened : Accruing s.activeOrders { s with toRemove := [] } :=
    { accrued := accrued.frame (fun _ cached => cached) rfl rfl fun _ => rfl
      fresh := fresh, answers := answers
      active := List.Subset.refl _, upToDate := fun i member => .inl member }
  have visited : (Outcome.forEach (GridStrategy.visit cfg) { s with toRemove := [] }
      s.activeOrders).Ends (Accruing []) fun _ => False :=
    Outcome.forEach_ends Accruing (fun orderId rest s accruing => accruing.visit) opened
  unfold checkFilledOrders
  cases ran : Outcome.forEach (GridStrategy.visit cfg) { s with toRemove := [] }
      s.activeOrders with
  | thrown s' =>
      rw [ran] at visited
      exact visited.elim
  | done s' =>
      rw [ran] at visited
      obtain ⟨kept, upToDate⟩ := visited.accrued.removeAll s'.toRemove fun i member =>
        (visited.upToDate i member).resolve_left List.not_mem_nil
      exact ⟨kept.frame (fun _ cached => cached) rfl rfl fun _ => rfl, upToDate⟩

def AccruedFresh (s : GridStrategy) : Prop := s.Accrued ∧ FreshReplies s.orderManager s.replies

theorem Accrued.place (accrued : s.Accrued) (fresh : FreshReplies s.orderManager s.replies)
    (side : Side) (price qty : ℚ) :
    (s.placeAndTrack .grid side price qty).Ends AccruedFresh AccruedFresh := by
  by_cases answers : s.replies = []
  · have threw : s.placeAndTrack .grid side price qty =
        .thrown (s.abort .grid ⟨side, price, qty⟩) := by
      rcases s.placeAndTrack_cases .grid side price qty with
        ⟨-, -, ends⟩ | ⟨silent, -, -⟩ | ⟨newId, silent, -, -⟩
      · exact ends
      · simp [nextReply, answers, Reply.throws] at silent
      · simp [nextReply, answers, Reply.throws] at silent
    rw [threw]
    constructor
    · exact accrued.record (.call .grid side price qty none) (fun _ => rfl)
        (fun _ cached => cached) (List.Subset.refl _) (fun _ _ => rfl) rfl
    · show FreshReplies s.orderManager s.replies.tail
      simpa [answers] using fresh
  · obtain ⟨newId, accepted, -, absent⟩ := fresh.next answers
    rw [s.placeAndTrack_accepted accepted]
    constructor
    · exact accrued.accept rfl rfl rfl (fun i => by simp [Cause.parent]) (by simp [Cause.parent])
        absent
    · exact fresh.tail accepted _

theorem Accrued.start (accrued : s.Accrued) (fresh : FreshReplies s.orderManager s.replies) :
    (s.start cfg).state.Accrued := by
  have kept : (s.start cfg).state.AccruedFresh := by
    apply start_rule cfg
    · exact fun s i _ kept => kept.1.place kept.2 .buy _ _
    · exact fun s i _ kept => kept.1.place kept.2 .sell _ _
    · exact ⟨accrued, fresh⟩
  exact kept.1

theorem Accrued.report (accrued : s.Accrued) (status : OrderStatus) (filled : ℚ)
    {m : OrderManager}
    (kept : ∀ i, (s.orderManager.orders i).isSome → (m.orders i).isSome) :
    Accrued { s.report orderId status filled with orderManager := m } := by
  unfold GridStrategy.report
  cases s.orderManager.orders orderId with
  | none => exact accrued.frame kept rfl rfl fun _ => rfl
  | some order =>
      exact accrued.record (.report orderId status filled) (fun _ => rfl) kept
        (List.Subset.refl _) (fun _ _ => rfl) rfl

end GridStrategy

open GridStrategy

theorem accrued_step (cfg : GridConfig) (s : GridStrategy) (e : Event) (places : PlacesAll cfg s e)
    (accrued : s.Accrued) : (step cfg s e).Accrued := by
  have supplied : ∀ replies, GridStrategy.Accrued { s with replies := replies } := fun replies =>
    accrued.frame (fun _ cached => cached) rfl rfl fun _ => rfl
  cases e with
  | start replies => exact (supplied replies).start places.1
  | checkFilledOrders replies => exact ((supplied replies).pass cfg places.1 places.2).1
  | updateOrder orderId status filled =>
      apply accrued.report
      intro i cached
      obtain ⟨order, present⟩ := Option.isSome_iff_exists.mp cached
      simp [s.orderManager.updateOrder_cached orderId i status filled order present]
  | syncOrder orderId side price quantity status filled =>
      apply accrued.report
      intro i cached
      obtain ⟨order, present⟩ := Option.isSome_iff_exists.mp cached
      simp [s.orderManager.syncOrder_cached orderId i status filled order present]
  | setBalance currency amount =>
      exact accrued.frame (fun _ cached => cached) rfl rfl fun _ => rfl

def Accumulated (s : GridStrategy) : Prop :=
  ∀ i ∈ s.activeOrders, ∀ order, s.orderManager.orders i = some order →
    order.status = .partiallyFilled →
    s.knownFilled i = hedgedPartially s.history i ∧
    |order.filled - s.knownFilled i| < 1 / 20000

theorem smallFills_accumulate (cfg : GridConfig) (m : OrderManager) (events : List Event)
    (replies : List Reply)
    (places : Along (step cfg) (PlacesAll cfg) { orderManager := m }
      (events ++ [.checkFilledOrders replies]))
    (noDecline : NoDecline
      (run (step cfg) { orderManager := m } (events ++ [.checkFilledOrders replies])).history) :
    Accumulated (run (step cfg) { orderManager := m } (events ++ [.checkFilledOrders replies])) := by
  have initial : Accrued { orderManager := m } :=
    ⟨by simp, fun i _ => by simp [knownFilled, hedgedPartially], by simp⟩
  obtain ⟨earlier, pass, -⟩ := along_append.mp places
  have accrued := (always_of_invariant (accrued_step cfg) initial earlier).last
  rw [run_append] at noDecline ⊢
  generalize run (step cfg) { orderManager := m } events = s at accrued pass noDecline ⊢
  have supplied : Accrued { s with replies := replies } :=
    accrued.frame (fun _ cached => cached) rfl rfl fun _ => rfl
  obtain ⟨after, upToDate⟩ := supplied.pass cfg pass.1 pass.2
  intro i active order cached status
  refine ⟨after.known noDecline i active, ?_⟩
  exact (Utils.round_eq_zero_iff _).mp (upToDate i active order cached status)

/-- After a pass of a run whose hedges are all placed, the fills that are left to hedge are small,
exactly when every hedge found room. -/
theorem stored_smallFills_iff (spare : ℕ → ℕ) (cfg : GridConfig) (m : OrderManager)
    (capacity : ℕ) (events : List Event) (replies : List Reply)
    (places : Along (Stored.step spare cfg) (Stored.Permits (PlacesAll cfg))
      (some ⟨{ orderManager := m }, capacity⟩) (events ++ [.checkFilledOrders replies]))
    (noDecline : ∀ r ∈ run (Stored.step spare cfg) (some ⟨{ orderManager := m }, capacity⟩)
      (events ++ [.checkFilledOrders replies]), NoDecline r.strategy.history) :
    Stored.Defined Accumulated (run (Stored.step spare cfg)
        (some ⟨{ orderManager := m }, capacity⟩) (events ++ [.checkFilledOrders replies])) ↔
      Stored.Roomy spare cfg (some ⟨{ orderManager := m }, capacity⟩)
        (events ++ [.checkFilledOrders replies]) := by
  have fits : ({ orderManager := m } : GridStrategy).activeOrders.length ≤ capacity :=
    Nat.zero_le capacity
  rw [Stored.defined_run_iff spare cfg fits]
  apply and_iff_left_of_imp
  intro roomy
  have placed := Stored.along_permits spare cfg fits places roomy
  have ends := (Stored.defined_run_iff spare cfg fits (P := fun s => s = run (step cfg)
    { orderManager := m } (events ++ [.checkFilledOrders replies]))).mpr ⟨roomy, rfl⟩
  obtain ⟨r, last, same⟩ := ends
  apply smallFills_accumulate cfg m events replies placed
  rw [← same]
  exact noDecline r last

def tinyFills : List Event := [
  .start [.accepted "1", .accepted "2", .accepted "3"],
  .updateOrder "1" .partiallyFilled (3 / 100000),
  .checkFilledOrders [.accepted "4", .accepted "5", .accepted "6"],
  .updateOrder "1" .partiallyFilled (6 / 100000)]

theorem stored_smallFills_tinyFills :
    Stored.Defined Accumulated (run (Stored.step Growing.doubling { ladder 10 with levelsBelow := 3 })
        (some ⟨{ orderManager := emptyManager }, 0⟩)
        (tinyFills ++ [.checkFilledOrders [.accepted "4", .accepted "5", .accepted "6"]])) ↔
      Stored.Roomy Growing.doubling { ladder 10 with levelsBelow := 3 }
        (some ⟨{ orderManager := emptyManager }, 0⟩)
        (tinyFills ++ [.checkFilledOrders [.accepted "4", .accepted "5", .accepted "6"]]) :=
  stored_smallFills_iff Growing.doubling { ladder 10 with levelsBelow := 3 } emptyManager 0
    tinyFills [.accepted "4", .accepted "5", .accepted "6"] (by decide +kernel) (by decide +kernel)

def tinyFill : List Event := [
  .start [.accepted "1"],
  .updateOrder "1" .partiallyFilled (6 / 100000),
  .checkFilledOrders [.accepted "2"]]

theorem tinyFill_movesStorage :
    Along (Stored.step Growing.doubling (ladder 10)) (Stored.Permits (PlacesAll (ladder 10)))
      (some ⟨{ orderManager := emptyManager }, 0⟩) tinyFill ∧
    run (Stored.step Growing.doubling (ladder 10)) (some ⟨{ orderManager := emptyManager }, 0⟩)
      tinyFill = none ∧
    ¬ Stored.Defined Accumulated (run (Stored.step Growing.doubling (ladder 10))
      (some ⟨{ orderManager := emptyManager }, 0⟩) tinyFill) := by
  have moved : run (Stored.step Growing.doubling (ladder 10))
      (some ⟨{ orderManager := emptyManager }, 0⟩) tinyFill = none := by
    rw [← Option.isNone_iff_eq_none]
    decide +kernel
  refine ⟨by decide +kernel, moved, ?_⟩
  rw [moved]
  rintro ⟨r, last, -⟩
  contradiction

end SpotGridBot.Strategy
