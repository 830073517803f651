import SpotGridBot.Strategy.Rules

namespace SpotGridBot.Strategy
open Utils SpotGridBot.Core Runs

def Record.fullHedge {α : Type} (orderId : OrderId) : Record α → Bool
  | .call (.filled parent) _ _ _ (some newId) => parent = orderId ∧ newId ≠ ""
  | _ => false

namespace GridStrategy

section Counts
variable {α : Type} {s s' : GridStrategy α}

def fullHedges (s : GridStrategy α) (orderId : OrderId) : ℕ :=
  s.history.countP (Record.fullHedge orderId)

structure Kept (s : GridStrategy α) : Prop where
  noEmpty : s.orderManager.orders "" = none
  nodup : (s.activeOrders.filter (· ≠ "")).Nodup
  tracked : ∀ i ∈ s.activeOrders, i ≠ "" → (s.orderManager.orders i).isSome
  hedged : ∀ i, s.fullHedges i ≠ 0 → (s.orderManager.orders i).isSome
  once : ∀ i, s.fullHedges i ≤ 1
  unhedged : ∀ i ∈ s.activeOrders, i ∉ s.toRemove → s.fullHedges i = 0

def Unhedged (s : GridStrategy α) : Prop := ∀ i ∈ s.activeOrders, s.fullHedges i = 0

theorem fullHedges_append (s : GridStrategy α) (entry : Record α)
    (appended : s'.history = s.history ++ [entry]) (i : OrderId) :
    s'.fullHedges i = s.fullHedges i + if entry.fullHedge i then 1 else 0 := by
  simp [fullHedges, appended, List.countP_append, List.countP_singleton]

theorem fullHedges_silent (s : GridStrategy α) (entry : Record α)
    (appended : s'.history = s.history ++ [entry]) (silent : ∀ i, entry.fullHedge i = false)
    (i : OrderId) : s'.fullHedges i = s.fullHedges i := by
  simp [fullHedges_append s entry appended, silent]

theorem Kept.frame (kept : s.Kept) (orders : s'.orderManager.orders = s.orderManager.orders)
    (active : s'.activeOrders = s.activeOrders) (marks : s.toRemove ⊆ s'.toRemove)
    (hedges : ∀ i, s'.fullHedges i = s.fullHedges i) : s'.Kept where
  noEmpty := orders ▸ kept.noEmpty
  nodup := active ▸ kept.nodup
  tracked := by
    rw [orders, active]
    exact kept.tracked
  hedged := by
    simp only [hedges, orders]
    exact kept.hedged
  once := by
    simp only [hedges]
    exact kept.once
  unhedged := by
    intro i member unmarked
    rw [hedges]
    exact kept.unhedged i (active ▸ member) fun marked => unmarked (marks marked)

variable {cause : Cause} {details : OrderDetails α}

theorem fullHedges_abort (i : OrderId) :
    (s.abort cause details).fullHedges i = s.fullHedges i := by
  refine fullHedges_silent s (.call cause details.side details.price details.qty none) rfl ?_ i
  intro i
  cases cause with
  | _ => rfl

theorem fullHedges_refuse (i : OrderId) :
    (s.refuse cause details).fullHedges i = s.fullHedges i := by
  refine fullHedges_silent s (.call cause details.side details.price details.qty (some "")) rfl ?_ i
  intro i
  cases cause with
  | _ => simp [Record.fullHedge]

theorem Kept.abort (kept : s.Kept) : (s.abort cause details).Kept :=
  kept.frame rfl rfl (List.Subset.refl _) fullHedges_abort

theorem Kept.unhedged_unknown (kept : s.Kept) {i : OrderId}
    (unknown : s.orderManager.orders i = none) : s.fullHedges i = 0 := by
  by_contra hedged
  simpa [unknown] using kept.hedged i hedged

theorem Kept.refuse (kept : s.Kept) : (s.refuse cause details).Kept where
  noEmpty := kept.noEmpty
  nodup := by simpa using kept.nodup
  tracked i member nonempty := by
    have old : i ∈ s.activeOrders := by
      simpa [nonempty] using member
    exact kept.tracked i old nonempty
  hedged := by
    simp only [fullHedges_refuse]
    exact kept.hedged
  once := by
    simp only [fullHedges_refuse]
    exact kept.once
  unhedged i member unmarked := by
    rw [fullHedges_refuse]
    rcases List.mem_append.mp member with old | new
    · exact kept.unhedged i old unmarked
    · exact List.mem_singleton.mp new ▸ kept.unhedged_unknown kept.noEmpty

theorem Unhedged.refuse (clean : s.Unhedged) (kept : s.Kept) :
    (s.refuse cause details).Unhedged := by
  intro i member
  rw [fullHedges_refuse]
  rcases List.mem_append.mp member with old | new
  · exact clean i old
  · exact List.mem_singleton.mp new ▸ kept.unhedged_unknown kept.noEmpty

theorem removeAll_frame (orderIds : List OrderId) :
    (s.removeAll orderIds).orderManager = s.orderManager ∧
    (s.removeAll orderIds).activeOrders = s.activeOrders.filter (· ∉ orderIds) ∧
    ∀ i, (s.removeAll orderIds).fullHedges i = s.fullHedges i := by
  obtain ⟨orderManager, active⟩ := s.removeAll_books orderIds
  refine ⟨orderManager, active, ?_⟩
  clear orderManager active
  induction orderIds generalizing s with
  | nil => exact fun i => rfl
  | cons id ids ih =>
      intro i
      exact (ih i).trans (fullHedges_silent s (.left id (s.orderManager.getOrderLocal id)) rfl
        (fun _ => rfl) i)

theorem Kept.removeAll (kept : s.Kept) :
    ({ s.removeAll s.toRemove with toRemove := [] } : GridStrategy α).Kept ∧
      ({ s.removeAll s.toRemove with toRemove := [] } : GridStrategy α).Unhedged := by
  obtain ⟨orderManager, active, hedges⟩ := removeAll_frame (s := s) s.toRemove
  have clean : ({ s.removeAll s.toRemove with toRemove := [] } : GridStrategy α).Unhedged := by
    intro i member
    simp only [active] at member
    obtain ⟨member, unmarked⟩ := List.mem_filter.mp member
    exact (hedges i).trans (kept.unhedged i member (by simpa using unmarked))
  refine ⟨?_, clean⟩
  exact
    { noEmpty := orderManager ▸ kept.noEmpty
      nodup := by
        simp only [active]
        exact kept.nodup.sublist (List.filter_sublist.filter _)
      tracked := by
        simp only [active, orderManager]
        exact fun i member => kept.tracked i (List.mem_of_mem_filter member)
      hedged := by
        intro i hedged
        rw [orderManager]
        exact kept.hedged i (hedges i ▸ hedged)
      once := fun i => (hedges i).trans_le (kept.once i)
      unhedged := fun i member _ => clean i member }

theorem Kept.cache (kept : s.Kept) {m : OrderManager α}
    (noEmpty : m.orders "" = none)
    (cached : ∀ i, (s.orderManager.orders i).isSome → (m.orders i).isSome) :
    Kept { s with orderManager := m } where
  noEmpty := noEmpty
  nodup := kept.nodup
  tracked i member nonempty := cached i (kept.tracked i member nonempty)
  hedged i hedged := cached i (kept.hedged i hedged)
  once := kept.once
  unhedged := kept.unhedged

theorem Kept.report (kept : s.Kept) (clean : s.Unhedged) (orderId : OrderId)
    (status : OrderStatus) (filled : α) :
    (s.report orderId status filled).Kept ∧ (s.report orderId status filled).Unhedged := by
  unfold GridStrategy.report
  cases s.orderManager.orders orderId with
  | none => exact ⟨kept, clean⟩
  | some order =>
      have same := fullHedges_silent s (.report orderId status filled)
        (rfl : (s.record (.report orderId status filled)).history = _) (fun _ => rfl)
      exact ⟨kept.frame rfl rfl (List.Subset.refl _) same, fun i member =>
        (same i).trans (clean i member)⟩

end Counts

section Accept
variable {α : Type} [Zero α] {s s' : GridStrategy α} {cause : Cause} {details : OrderDetails α}

theorem fullHedges_accept {newId : OrderId} (nonempty : newId ≠ "") (i : OrderId) :
    (s.accept cause newId details).fullHedges i =
      s.fullHedges i + if cause = .filled i then 1 else 0 := by
  rw [fullHedges_append s (.call cause details.side details.price details.qty (some newId)) rfl]
  cases cause with
  | grid => simp [Record.fullHedge]
  | filled parent => simp [Record.fullHedge, nonempty]
  | partialFill parent => simp [Record.fullHedge]

theorem Kept.accept (kept : s.Kept) {newId : OrderId} (nonempty : newId ≠ "")
    (absent : s.orderManager.orders newId = none) (marks : List OrderId)
    (first : ∀ i, cause = .filled i →
      i ∈ marks ∧ s.fullHedges i = 0 ∧ (s.orderManager.orders i).isSome) :
    Kept { s.accept cause newId details with toRemove := s.toRemove ++ marks } := by
  have cached : ∀ i, (s.orderManager.orders i).isSome →
      ((s.accept cause newId details).orderManager.orders i).isSome := fun i present =>
    s.accept_isSome cause newId details present
  have hedges : ∀ i, GridStrategy.fullHedges
      { s.accept cause newId details with toRemove := s.toRemove ++ marks } i =
      s.fullHedges i + if cause = .filled i then 1 else 0 := fullHedges_accept nonempty
  have newHedges : s.fullHedges newId = 0 := kept.unhedged_unknown absent
  exact
    { noEmpty := by simp [Ne.symm nonempty, kept.noEmpty]
      nodup := by
        have untracked : newId ∉ s.activeOrders := fun tracked => by
          simpa [absent] using kept.tracked newId tracked nonempty
        have filtered : (s.activeOrders ++ [newId]).filter (· ≠ "") =
            s.activeOrders.filter (· ≠ "") ++ [newId] := by simp [nonempty]
        refine filtered ▸ List.nodup_append.mpr ⟨kept.nodup, by simp, ?_⟩
        rintro i member _ new rfl
        exact untracked (List.mem_singleton.mp new ▸ List.mem_of_mem_filter member)
      tracked := by
        intro i member nonempty
        rcases List.mem_append.mp member with old | new
        · exact cached i (kept.tracked i old nonempty)
        · simp [List.mem_singleton.mp new]
      hedged := by
        intro i hedged
        rw [hedges] at hedged
        by_cases own : cause = .filled i
        · exact cached i (first i own).2.2
        · exact cached i (kept.hedged i (by simpa [own] using hedged))
      once := by
        intro i
        rw [hedges]
        split
        next own => rw [(first i own).2.1]
        next => exact kept.once i
      unhedged := by
        intro i member unmarked
        rw [hedges]
        simp only [List.mem_append, not_or] at unmarked
        have notOwn : cause ≠ .filled i := fun own => unmarked.2 (first i own).1
        rw [if_neg notOwn]
        rcases List.mem_append.mp member with old | new
        · exact kept.unhedged i old unmarked.1
        · exact List.mem_singleton.mp new ▸ newHedges }

theorem Unhedged.accept (clean : s.Unhedged) (kept : s.Kept) {newId : OrderId}
    (nonempty : newId ≠ "") (absent : s.orderManager.orders newId = none)
    (part : ∀ i, cause ≠ .filled i) : (s.accept cause newId details).Unhedged := by
  intro i member
  rw [fullHedges_accept nonempty, if_neg (part i)]
  rcases List.mem_append.mp member with old | new
  · exact clean i old
  · exact List.mem_singleton.mp new ▸ kept.unhedged_unknown absent

theorem Kept.place (kept : s.Kept) (clean : s.Unhedged) (fresh : FreshIds s.orderManager s.replies)
    (side : Side) (price qty : α) :
    (∃ s', s.placeAndTrack .grid side price qty = .done s' ∧
      s'.Kept ∧ s'.Unhedged ∧ FreshIds s'.orderManager s'.replies) ∨
    (∃ s', s.placeAndTrack .grid side price qty = .thrown s' ∧ s'.Kept ∧ s'.Unhedged) := by
  rcases s.placeAndTrack_cases .grid side price qty with
    ⟨-, -, threw⟩ | ⟨-, -, refuses⟩ | ⟨newId, -, accepted, accepts⟩
  · exact .inr ⟨_, threw, kept.abort, fun i member => (fullHedges_abort i).trans (clean i member)⟩
  · exact .inl ⟨_, refuses, kept.refuse, clean.refuse kept, fresh.tail⟩
  · obtain ⟨nonempty, absent, freshNext⟩ := fresh.next accepted
    refine .inl ⟨_, accepts, ?_, clean.accept kept nonempty absent (by simp), freshNext _⟩
    exact (kept.accept nonempty absent [] (by simp)).frame rfl rfl
      (by simp) fun _ => rfl

end Accept

section Start
variable {α : Type} [Zero α] [One α] [NatCast α] [Add α] [Sub α] [Mul α] {s : GridStrategy α}
  {cfg : GridConfig α}

theorem Kept.start (kept : s.Kept) (clean : s.Unhedged)
    (fresh : FreshIds s.orderManager s.replies) :
    (s.start cfg).state.Kept ∧ (s.start cfg).state.Unhedged := by
  have grid : ∀ (side : Side) (price : α → α) (levels : List α) (s : GridStrategy α),
      s.Kept ∧ s.Unhedged ∧ FreshIds s.orderManager s.replies →
      (∃ s', Outcome.forEach (fun s i =>
          s.placeAndTrack .grid side (price i) cfg.percentOrderQty) s levels = .done s' ∧
        s'.Kept ∧ s'.Unhedged ∧ FreshIds s'.orderManager s'.replies) ∨
      (∃ s', Outcome.forEach (fun s i =>
          s.placeAndTrack .grid side (price i) cfg.percentOrderQty) s levels = .thrown s' ∧
        s'.Kept ∧ s'.Unhedged) := fun side price levels s holds =>
    Outcome.forEach_rule
      (fun _ (s : GridStrategy α) => s.Kept ∧ s.Unhedged ∧ FreshIds s.orderManager s.replies)
      (fun s : GridStrategy α => s.Kept ∧ s.Unhedged)
      (fun i _ s holds => holds.1.place holds.2.1 holds.2.2 side (price i) cfg.percentOrderQty)
      holds
  unfold GridStrategy.start
  simp only
  rcases grid .buy (fun i => cfg.basePrice * (1 - cfg.stepPercent * i)) _ s ⟨kept, clean, fresh⟩
    with ⟨s₁, below, holds⟩ | ⟨s₁, below, failed⟩
  · rw [below, Outcome.bind_done]
    rcases grid .sell (fun i => cfg.basePrice * (1 + cfg.stepPercent * i)) _ s₁ holds
      with ⟨s₂, above, holds⟩ | ⟨s₂, above, failed⟩
    · rw [above]
      exact ⟨holds.1, holds.2.1⟩
    · rw [above]
      exact failed
  · rw [below]
    exact failed

end Start

section Quiet
variable {α : Type} [Zero α] {s s' : GridStrategy α}

structure Quiet (orderId : OrderId) (s s' : GridStrategy α) : Prop where
  orderManager : s'.orderManager = s.orderManager
  active : s'.activeOrders = s.activeOrders
  replies : s'.replies = s.replies
  marks : s'.toRemove = s.toRemove ∨ s'.toRemove = s.toRemove ++ [orderId]
  hedges : ∀ i, s'.fullHedges i = s.fullHedges i
  details : ∀ i, s'.details i = s.details i
  known : ∀ i, i ≠ orderId → s'.knownFilled i = s.knownFilled i

theorem Quiet.refl (orderId : OrderId) : Quiet orderId s s :=
  ⟨rfl, rfl, rfl, .inl rfl, fun _ => rfl, fun _ => rfl, fun _ _ => rfl⟩

theorem Quiet.touch {orderId : OrderId} (quiet : Quiet orderId s s') :
    Quiet orderId s (s'.touchDetails orderId) :=
  { quiet with details := fun i => (details_touchDetails s').trans (quiet.details i) }

theorem Quiet.decline {orderId : OrderId} (quiet : Quiet orderId s s') (cause : Cause) (qty : α) :
    Quiet orderId s (s'.record (.declined cause qty)) :=
  { quiet with
    hedges := fun i =>
      (fullHedges_silent s' (.declined cause qty) rfl (fun _ => rfl) i).trans (quiet.hedges i) }

theorem Quiet.setKnown (orderId : OrderId) (filled : α) :
    Quiet orderId s (s.setKnown orderId filled) :=
  { Quiet.refl orderId with
    known := fun i other => by rw [knownFilled_setKnown, if_neg other] }

theorem Quiet.mark {orderId : OrderId} (quiet : Quiet orderId s s')
    (unmarked : s'.toRemove = s.toRemove) : Quiet orderId s (s'.markForRemoval orderId) :=
  { quiet with marks := .inr (by rw [← unmarked]; rfl) }

theorem Kept.quiet (kept : s.Kept) {orderId : OrderId} (quiet : Quiet orderId s s') : s'.Kept :=
  kept.frame (by rw [quiet.orderManager]) quiet.active
    (by rcases quiet.marks with same | marks <;> simp [*]) quiet.hedges

theorem Unhedged.quiet (clean : s.Unhedged) {orderId : OrderId} (quiet : Quiet orderId s s') :
    s'.Unhedged := by
  intro i active
  rw [quiet.hedges]
  exact clean i (quiet.active ▸ active)

end Quiet

section Visits
variable {α : Type} [Zero α] [One α] [Sub α] [Mul α] [LE α] [LT α] [DecidableLE α] [DecidableLT α]
  [Doubles α] {s s' : GridStrategy α} (cfg : GridConfig α)

def placement (s : GridStrategy α) (orderId : OrderId) : Option Bool :=
  match s.orderManager.orders orderId with
  | none => none
  | some order =>
      let delta := order.filled - s.knownFilled orderId
      if order.status = .filled then
        if s.PassesFilled cfg orderId then some true else none
      else if order.status = .partiallyFilled ∧ Doubles.isTrue (Doubles.round delta) = true then
        if s.PassesPartial cfg orderId delta then some false else none
      else none

theorem placement_congr {i : OrderId} (orders : s'.orderManager.orders i = s.orderManager.orders i)
    (balance : s'.orderManager.balance = s.orderManager.balance)
    (same : (s.orderManager.orders i).isSome →
      s'.details i = s.details i ∧ s'.knownFilled i = s.knownFilled i) :
    placement cfg s' i = placement cfg s i := by
  simp only [placement, orders]
  cases cached : s.orderManager.orders i with
  | none => rfl
  | some order =>
      obtain ⟨details, known⟩ := same (by simp [cached])
      have passesFilled : s'.PassesFilled cfg i ↔ s.PassesFilled cfg i := by
        simp only [PassesFilled, OrderManager.getBalance, balance, details]
      have passesPartial : ∀ delta, s'.PassesPartial cfg i delta ↔ s.PassesPartial cfg i delta := by
        simp only [PassesPartial, OrderManager.getBalance, balance, details, implies_true]
      simp only [known, passesFilled, passesPartial]

theorem placement_quiet {orderId i : OrderId} (quiet : Quiet orderId s s')
    (other : i ≠ orderId ∨ s.orderManager.orders i = none) :
    placement cfg s' i = placement cfg s i := by
  refine placement_congr cfg (by rw [quiet.orderManager]) (by rw [quiet.orderManager])
    fun cached => ⟨quiet.details i, quiet.known i ?_⟩
  rcases other with other | absent
  · exact other
  · simp [absent] at cached

theorem placement_refuse (noEmpty : s.orderManager.orders "" = none) (cause : Cause)
    (details : OrderDetails α) (i : OrderId) :
    placement cfg (s.refuse cause details) i = placement cfg s i := by
  refine placement_congr cfg rfl rfl fun cached => ⟨?_, rfl⟩
  have nonempty : i ≠ "" := by
    rintro rfl
    simp [noEmpty] at cached
  simp [GridStrategy.details, nonempty]

theorem placement_accept {newId i : OrderId} (other : i ≠ newId) (cause : Cause)
    (details : OrderDetails α) :
    placement cfg (s.accept cause newId details) i = placement cfg s i := by
  refine placement_congr cfg ?_ rfl fun _ => ⟨?_, rfl⟩
  · simp [other]
  · simp [GridStrategy.details, other]

variable [Add α]

theorem visit_quiet {orderId : OrderId} (none : placement cfg s orderId = none) :
    ∃ s', s.visit cfg orderId = .done s' ∧ Quiet orderId s s' := by
  have refl : Quiet orderId s s := Quiet.refl orderId
  cases cached : s.orderManager.orders orderId with
  | none => exact ⟨s, visit_unknown cfg cached, refl⟩
  | some order =>
      simp only [placement, cached] at none
      cases status : order.status with
      | new => exact ⟨s, visit_new cfg cached status, refl⟩
      | canceled => exact ⟨_, visit_dead cfg cached (.inl status), refl.mark rfl⟩
      | rejected => exact ⟨_, visit_dead cfg cached (.inr status), refl.mark rfl⟩
      | filled =>
          have short : ¬ s.PassesFilled cfg orderId := by simpa [status] using none
          have declined := (s.hedgeFilled_cases cfg orderId).resolve_left fun hedged =>
            short hedged.1
          refine ⟨_, ?_, (refl.touch.decline (.filled orderId) (s.details orderId).qty).mark rfl⟩
          rw [visit_hedgeFilled cfg cached status, declined.2]
          rfl
      | partiallyFilled =>
          cases newFill : Doubles.isTrue
            (Doubles.round (order.filled - s.knownFilled orderId)) with
          | false => exact ⟨_, visit_seen cfg cached status newFill, Quiet.setKnown orderId _⟩
          | true =>
              have short : ¬ s.PassesPartial cfg orderId
                  (order.filled - s.knownFilled orderId) := by
                simpa [status, newFill] using none
              have declined := ((s.setKnown orderId order.filled).hedgePartial_cases cfg orderId
                (order.filled - s.knownFilled orderId)).resolve_left fun hedged => short hedged.1
              refine ⟨_, ?_, (Quiet.setKnown orderId order.filled).touch.decline
                (.partialFill orderId) (order.filled - s.knownFilled orderId)⟩
              rw [visit_hedgePartial cfg cached status newFill, declined.2]

theorem visit_places {orderId : OrderId} {full : Bool}
    (places : placement cfg s orderId = some full) :
    ∃ cause side price qty s₁, Quiet orderId s s₁ ∧ s₁.toRemove = s.toRemove ∧
      (∀ i, cause = .filled i ↔ i = orderId ∧ full = true) ∧
      s.visit cfg orderId = (s₁.placeAndTrack cause side price qty).bind fun s =>
        .done { s with toRemove := s.toRemove ++ if full then [orderId] else [] } := by
  cases cached : s.orderManager.orders orderId with
  | none => simp [placement, cached] at places
  | some order =>
      simp only [placement, cached] at places
      cases status : order.status with
      | new => simp [status] at places
      | canceled => simp [status] at places
      | rejected => simp [status] at places
      | filled =>
          obtain ⟨passes, rfl⟩ : s.PassesFilled cfg orderId ∧ true = full := by
            simpa [status] using places
          have placed := (s.hedgeFilled_cases cfg orderId).resolve_right fun declined =>
            declined.1 passes
          refine ⟨.filled orderId, hedgeSide (s.details orderId),
            hedgePrice cfg (s.details orderId), (s.details orderId).qty, _,
            (Quiet.refl orderId).touch, rfl, by simp [eq_comm], ?_⟩
          rw [visit_hedgeFilled cfg cached status, placed.2]
          rfl
      | partiallyFilled =>
          obtain ⟨newFill, passes, rfl⟩ :
              Doubles.isTrue (Doubles.round (order.filled - s.knownFilled orderId)) = true ∧
              s.PassesPartial cfg orderId (order.filled - s.knownFilled orderId) ∧
                false = full := by
            simpa [status] using places
          have placed := ((s.setKnown orderId order.filled).hedgePartial_cases cfg orderId
            (order.filled - s.knownFilled orderId)).resolve_right fun declined =>
              declined.1 passes
          refine ⟨.partialFill orderId, hedgeSide (s.details orderId),
            hedgePrice cfg (s.details orderId), order.filled - s.knownFilled orderId, _,
            (Quiet.setKnown orderId order.filled).touch, rfl, by simp, ?_⟩
          rw [visit_hedgePartial cfg cached status newFill]
          refine placed.2.trans ?_
          change GridStrategy.placeAndTrack _ _ (hedgeSide (s.details orderId))
            (hedgePrice cfg (s.details orderId)) _ = _
          generalize (GridStrategy.placeAndTrack _ _ _ _ _ : Outcome (GridStrategy α)) = outcome
          cases outcome with
          | done s => simp
          | thrown s => rfl

end Visits

end GridStrategy

end SpotGridBot.Strategy
