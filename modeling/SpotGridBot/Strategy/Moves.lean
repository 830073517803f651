import SpotGridBot.Strategy.Account

namespace SpotGridBot.Strategy
open Utils SpotGridBot.Core Runs

def FreshReplies (m : OrderManager) (replies : List Reply) : Prop :=
  (replies.map Reply.acceptedId).Nodup ∧
  ∀ reply ∈ replies, ∃ newId ∈ reply.acceptedId, newId ≠ "" ∧ m.orders newId = none

instance (m : OrderManager) (replies : List Reply) : Decidable (FreshReplies m replies) :=
  inferInstanceAs (Decidable (_ ∧ ∀ reply ∈ replies, ∃ newId ∈ reply.acceptedId, _ ∧ _))

theorem FreshReplies.next {m : OrderManager} {replies : List Reply} (fresh : FreshReplies m replies)
    (answers : replies ≠ []) :
    ∃ newId, (replies.head?.getD .lost).acceptedId = some newId ∧
      newId ≠ "" ∧ m.orders newId = none := by
  obtain ⟨reply, rest, rfl⟩ := List.exists_cons_of_ne_nil answers
  exact fresh.2 reply List.mem_cons_self

theorem FreshReplies.tail {m : OrderManager} {replies : List Reply} (fresh : FreshReplies m replies)
    {newId : OrderId} (accepted : (replies.head?.getD .lost).acceptedId = some newId)
    (order : Order) : FreshReplies (m.store newId order) replies.tail := by
  cases replies with
  | nil => simp [FreshReplies]
  | cons reply rest =>
      have distinct : reply.acceptedId ∉ rest.map Reply.acceptedId := (List.nodup_cons.mp fresh.1).1
      refine ⟨(List.nodup_cons.mp fresh.1).2, fun later member => ?_⟩
      obtain ⟨laterId, laterAccepted, nonempty, absent⟩ :=
        fresh.2 later (List.mem_cons_of_mem reply member)
      refine ⟨laterId, laterAccepted, nonempty, ?_⟩
      have other : laterId ≠ newId := by
        rintro rfl
        simp only [List.head?_cons, Option.getD_some] at accepted
        exact distinct (accepted ▸ laterAccepted ▸ List.mem_map_of_mem member)
      simp [other, absent]

namespace GridStrategy
variable {cfg : GridConfig} {s s₁ s' : GridStrategy}

def closes (s : GridStrategy) (orderId : OrderId) : Bool :=
  (s.orderManager.orders orderId).any (Closed ·)

structure Moved (calls : ℕ) (change : OrderId → Account → Account) (removed : List OrderId)
    (s s' : GridStrategy) : Prop where
  wellFormed : s'.WellFormed
  fresh : FreshReplies s'.orderManager s'.replies
  answers : s.replies.length ≤ s'.replies.length + calls
  orders : ∀ i, (s.orderManager.orders i).isSome →
    s'.orderManager.orders i = s.orderManager.orders i
  balance : s'.orderManager.balance = s.orderManager.balance
  toRemove : s'.toRemove = s.toRemove ++ removed
  active : s.activeOrders ⊆ s'.activeOrders
  old : ∀ i a, s.account i = some a → s'.account i = some (change i a)
  new : ∀ i a, s.account i = none → s'.account i = some a → a.Born

theorem Moved.refl (wf : s.WellFormed) (fresh : FreshReplies s.orderManager s.replies) :
    Moved 0 (fun _ a => a) [] s s where
  wellFormed := wf
  fresh := fresh
  answers := le_rfl
  orders _ _ := rfl
  balance := rfl
  toRemove := by simp
  active := List.Subset.refl _
  old _ _ here := here
  new i a absent here := by simp [absent] at here

theorem Moved.trans {n m : ℕ} {f g : OrderId → Account → Account} {removed removed' : List OrderId}
    (first : Moved n f removed s s₁) (second : Moved m g removed' s₁ s')
    (old : ∀ i, s.account i = none → ∀ a, g i a = a) :
    Moved (n + m) (fun i a => g i (f i a)) (removed ++ removed') s s' where
  wellFormed := second.wellFormed
  fresh := second.fresh
  answers := by have := first.answers; have := second.answers; omega
  orders i cached := by
    rw [second.orders i (by rwa [first.orders i cached]), first.orders i cached]
  balance := second.balance.trans first.balance
  toRemove := by rw [second.toRemove, first.toRemove, List.append_assoc]
  active := List.Subset.trans first.active second.active
  old i a here := second.old i _ (first.old i a here)
  new i a absent here := by
    cases between : s₁.account i with
    | none => exact second.new i a between here
    | some born =>
        have unchanged := second.old i born between
        rw [old i absent, here] at unchanged
        exact Option.some.inj unchanged ▸ first.new i born absent between

theorem Moved.congr {n m : ℕ} {f g : OrderId → Account → Account} {removed : List OrderId}
    (moved : Moved n f removed s s') (fewer : n ≤ m)
    (same : ∀ i a, s.account i = some a → f i a = g i a) : Moved m g removed s s' :=
  { moved with
    answers := moved.answers.trans (Nat.add_le_add_left fewer _)
    old := fun i a here => same i a here ▸ moved.old i a here }

theorem Moved.congr_at {n m : ℕ} {f : OrderId → Account → Account} {g : Account → Account}
    {removed : List OrderId} {orderId : OrderId} (moved : Moved n f removed s s') (fewer : n ≤ m)
    (elsewhere : ∀ i a, i ≠ orderId → f i a = a)
    (same : ∀ a, s.account orderId = some a → f orderId a = g a) :
    Moved m (fun i a => if i = orderId then g a else a) removed s s' := by
  refine moved.congr fewer fun i a here => ?_
  by_cases own : i = orderId
  · subst own
    rw [if_pos rfl, same a here]
  · rw [if_neg own, elsewhere i a own]

section Assignments
variable (wf : s.WellFormed) (fresh : FreshReplies s.orderManager s.replies) (orderId : OrderId)
include wf fresh

theorem moved_touchDetails : Moved 0 (fun _ a => a) [] s (s.touchDetails orderId) :=
  { Moved.refl wf fresh with
    wellFormed := ⟨wf.nodup, wf.tracked, wf.placed, wf.mentioned, wf.known⟩
    old := fun i a here => by simpa using here
    new := fun i a absent here => by simp [absent] at here }

theorem moved_markForRemoval : Moved 0 (fun _ a => a) [orderId] s (s.markForRemoval orderId) :=
  { Moved.refl wf fresh with
    wellFormed := ⟨wf.nodup, wf.tracked, wf.placed, wf.mentioned, wf.known⟩
    toRemove := rfl }

theorem moved_setKnown (cached : (s.orderManager.orders orderId).isSome) (filled : ℚ) :
    Moved 0 (fun i a => if i = orderId then { a with known := filled } else a) [] s
      (s.setKnown orderId filled) :=
  { Moved.refl wf fresh with
    wellFormed :=
      { nodup := wf.nodup, tracked := wf.tracked, placed := wf.placed, mentioned := wf.mentioned
        known := fun i known => by
          by_cases here : i = orderId
          · exact here ▸ cached
          · exact wf.known i (by simpa [setKnown, here] using known) }
    old := fun i a here => by simp [account_setKnown, here]
    new := fun i a absent here => by simp [account_setKnown, absent] at here }

omit fresh in
theorem wellFormed_record {entry : Record} (noPlacement : ∀ i, entry.places i = false)
    (cached : ∀ i, entry.entry i ≠ none → (s.orderManager.orders i).isSome) :
    (s.record entry).WellFormed where
  nodup := wf.nodup
  tracked i tracked := (placed_record (noPlacement i)).trans (wf.tracked i tracked)
  placed i placed := wf.placed i ((placed_record (noPlacement i)).symm.trans placed)
  mentioned i mentioned := by
    by_cases here : entry.entry i = none
    · rw [ledger_append s entry rfl, here] at mentioned
      exact wf.mentioned i (by simpa using mentioned)
    · exact cached i here
  known := wf.known

theorem moved_record {entry : Record} (noPlacement : ∀ i, entry.places i = false)
    (cached : ∀ i, entry.entry i ≠ none → (s.orderManager.orders i).isSome) :
    Moved 0 (fun i a => a.write (entry.entry i).toList) [] s (s.record entry) :=
  { Moved.refl wf fresh with
    wellFormed := wellFormed_record wf noPlacement cached
    old := fun i a here => by simp [account_record (noPlacement i), here]
    new := fun i a absent here => by simp [account_record (noPlacement i), absent] at here }

omit fresh in
theorem wellFormed_accept {cause : Cause} {newId : OrderId} {details : OrderDetails}
    (absent : s.orderManager.orders newId = none)
    (cached : ∀ i, cause.parent = some i → (s.orderManager.orders i).isSome) :
    (s.accept cause newId details).WellFormed where
  nodup := by
    have untracked : newId ∉ s.activeOrders := by
      intro tracked
      have present := wf.placed newId (wf.tracked newId tracked)
      simp [absent] at present
    refine List.nodup_append.mpr ⟨wf.nodup, by simp, ?_⟩
    rintro i tracked _ new rfl
    exact untracked (List.mem_singleton.mp new ▸ tracked)
  tracked i tracked := by
    rw [placed_accept]
    rcases List.mem_append.mp tracked with tracked | new
    · simp [wf.tracked i tracked]
    · simp [List.mem_singleton.mp new]
  placed i placed := by
    by_cases here : i = newId
    · simp [here]
    · rw [placed_accept] at placed
      have before : s.placed i = true := by simpa [Ne.symm here] using placed
      exact s.accept_isSome cause newId details (wf.placed i before)
  mentioned i mentioned := by
    apply accept_isSome
    by_cases own : cause.parent = some i
    · exact cached i own
    · apply wf.mentioned i
      rw [ledger_append s (.call cause details.side details.price details.qty
        (some newId)) rfl] at mentioned
      simpa [Record.entry, own] using mentioned
  known i known := s.accept_isSome cause newId details (wf.known i known)

theorem moved_accept {cause : Cause} {newId : OrderId} {details : OrderDetails}
    (accepted : s.nextReply.acceptedId = some newId) (valid : details.side ≠ .invalid)
    (cached : ∀ i, cause.parent = some i → (s.orderManager.orders i).isSome) :
    Moved 1 (fun i a => a.write
      (if cause.parent = some i then [.hedged details.side details.qty] else [])) [] s
      (s.accept cause newId details) := by
  obtain ⟨nonempty, absent⟩ : newId ≠ "" ∧ s.orderManager.orders newId = none := by
    have answers : s.replies ≠ [] := by
      intro none
      simp [nextReply, none, Reply.acceptedId] at accepted
    obtain ⟨id, same, nonempty, absent⟩ := fresh.next answers
    obtain rfl : id = newId := Option.some.inj (same.symm.trans accepted)
    exact ⟨nonempty, absent⟩
  have notOwn : cause.parent ≠ some newId := fun own => by simpa [absent] using cached newId own
  have other : ∀ i, (s.orderManager.orders i).isSome → i ≠ newId := by
    rintro i present rfl
    simp [absent] at present
  exact
    { wellFormed := wellFormed_accept wf absent cached
      fresh := fresh.tail accepted _
      answers := by simp; omega
      orders := fun i present => by simp [other i present]
      balance := rfl
      toRemove := by simp
      active := by simp
      old := fun i a here => by
        obtain ⟨placed, order, present, -⟩ := s.account_eq_some.mp here
        have different : i ≠ newId := other i (wf.placed i placed)
        rw [account_accept_other different nonempty, here]
        rfl
      new := fun i a absentBefore here => by
        by_cases new : i = newId
        · subst new
          rw [account_accept_same wf absent notOwn] at here
          exact ⟨i, details.side, details.price, details.qty, valid, (Option.some.inj here).symm⟩
        · rw [account_accept_other new nonempty, absentBefore] at here
          contradiction }

theorem moved_hedge (cfg : GridConfig) (details : OrderDetails) (qty : ℚ) {cause : Cause}
    {orderId : OrderId} (answers : s.replies ≠ []) (own : cause.parent = some orderId)
    (cached : (s.orderManager.orders orderId).isSome) :
    ∃ s', Strategy.hedge cfg cause details qty s = .done s' ∧
      Moved 1 (fun i a => if i = orderId then
        a.write [if Affordable cfg s.orderManager.balance details qty then
          .hedged (hedgeSide details) qty else .declined qty] else a) [] s s' := by
  by_cases affordable : Affordable cfg s.orderManager.balance details qty
  · have valid : hedgeSide details ≠ .invalid := by
      unfold hedgeSide
      split <;> simp
    obtain ⟨newId, accepted, -, -⟩ := fresh.next answers
    have placed := s.placeAndTrack_accepted accepted cause (hedgeSide details)
      (hedgePrice cfg details) qty
    refine ⟨s.accept cause newId ⟨hedgeSide details, hedgePrice cfg details, qty⟩,
      by simp only [Strategy.hedge, affordable, if_true, placed], ?_⟩
    refine (moved_accept wf fresh accepted valid ?_).congr_at le_rfl (fun i a other => ?_)
      fun a _ => ?_
    · intro i own'
      obtain rfl : orderId = i := Option.some.inj (own.symm.trans own')
      exact cached
    · simp [own, Ne.symm other, Account.write]
    · simp [own, affordable]
  · refine ⟨s.record (.declined cause qty),
      by simp only [Strategy.hedge, affordable, if_false], ?_⟩
    refine (moved_record wf fresh (fun _ => rfl) fun i mentioned => ?_).congr_at (Nat.zero_le _)
      (fun i a other => ?_) fun a _ => ?_
    · by_cases here : i = orderId
      · exact here ▸ cached
      · simp [Record.entry, own, Ne.symm here] at mentioned
    · simp [Record.entry, own, Ne.symm other, Account.write]
    · simp [Record.entry, own, affordable]

theorem moved_visit_dead (cfg : GridConfig) {orderId : OrderId} {order : Order}
    (present : s.orderManager.orders orderId = some order)
    (dead : order.status = .canceled ∨ order.status = .rejected) :
    ∃ s', s.visit cfg orderId = .done s' ∧
      Moved 1 (fun i a => if i = orderId then a.visit cfg s.orderManager.balance else a)
        (if s.closes orderId then [orderId] else []) s s' := by
  refine ⟨_, visit_dead cfg present dead, ?_⟩
  have leaves : s.closes orderId = true := by
    rcases dead with dead | dead <;> simp [closes, present, Closed, dead]
  simp only [leaves, if_true]
  refine (moved_markForRemoval wf fresh orderId).congr_at (Nat.zero_le _) (fun _ _ _ => rfl)
    fun a here => ?_
  obtain rfl : a.order = order := Option.some.inj ((account_order here).symm.trans present)
  rcases dead with dead | dead <;> simp [Account.visit, Account.NewFill, dead]

theorem moved_visit (cfg : GridConfig) {orderId : OrderId} (answers : s.replies ≠ [])
    (active : orderId ∈ s.activeOrders) :
    ∃ s', s.visit cfg orderId = .done s' ∧
      Moved 1 (fun i a => if i = orderId then a.visit cfg s.orderManager.balance else a)
        (if s.closes orderId then [orderId] else []) s s' := by
  have cached := wf.placed orderId (wf.tracked orderId active)
  obtain ⟨order, present⟩ := Option.isSome_iff_exists.mp cached
  have ownOrder : ∀ a, s.account orderId = some a → a.order = order := fun a here =>
    Option.some.inj ((account_order here).symm.trans present)
  have others : ∀ i, s.account i = none → i ≠ orderId := by
    rintro i absent rfl
    simp [s.account_eq_none.mp absent (wf.tracked i active)] at cached
  cases status : order.status with
  | new =>
      refine ⟨s, visit_new cfg present status, ?_⟩
      have stays : s.closes orderId = false := by simp [closes, present, Closed, status]
      simp only [stays]
      refine (Moved.refl wf fresh).congr_at (Nat.zero_le _) (fun _ _ _ => rfl) fun a here => ?_
      simp [Account.visit, Account.NewFill, ownOrder a here, status]
  | partiallyFilled =>
      have stays : s.closes orderId = false := by simp [closes, present, Closed, status]
      simp only [stays]
      by_cases newFill : Utils.round (order.filled - s.knownFilled orderId) = 0
      · refine ⟨_, visit_noNewFill cfg present status newFill, ?_⟩
        refine (moved_setKnown wf fresh orderId cached _).congr_at (Nat.zero_le _)
          (fun _ _ other => if_neg other) fun a here => ?_
        obtain rfl := ownOrder a here
        rw [← account_known here] at newFill ⊢
        simp [Account.visit, Account.NewFill, status, newFill]
      · have recorded := moved_setKnown wf fresh orderId cached order.filled
        have touched := moved_touchDetails recorded.wellFormed recorded.fresh orderId
        obtain ⟨s₁, hedged, moved⟩ := moved_hedge touched.wellFormed touched.fresh cfg
          (s.details orderId) (order.filled - s.knownFilled orderId) answers
          (rfl : (Cause.partialFill orderId).parent = some orderId) cached
        refine ⟨s₁, by rw [visit_newFill cfg present status newFill, hedged], ?_⟩
        refine ((recorded.trans touched fun _ _ _ => rfl).trans moved fun i absent a =>
          if_neg (others i absent)).congr_at le_rfl (fun _ _ other => by simp [other])
          fun a here => ?_
        simp [Account.visit, Account.NewFill, Account.hedge, ownOrder a here, status,
          account_known here, account_details here, newFill]
        rfl
  | filled =>
      have leaves : s.closes orderId = true := by simp [closes, present, Closed, status]
      simp only [leaves, if_true]
      have touched := moved_touchDetails wf fresh orderId
      obtain ⟨s₁, hedged, moved⟩ := moved_hedge touched.wellFormed touched.fresh cfg
        (s.details orderId) (s.details orderId).qty answers
        (rfl : (Cause.filled orderId).parent = some orderId) cached
      have marked := moved_markForRemoval moved.wellFormed moved.fresh orderId
      refine ⟨s₁.markForRemoval orderId, by rw [visit_filled cfg present status, hedged]; rfl, ?_⟩
      refine ((touched.trans moved fun i absent a => if_neg (others i absent)).trans marked
        fun _ _ _ => rfl).congr_at le_rfl (fun _ _ other => by simp [other]) fun a here => ?_
      simp [Account.visit, Account.hedge, ownOrder a here, status, account_details here]
      rfl
  | canceled => exact moved_visit_dead wf fresh cfg present (.inl status)
  | rejected => exact moved_visit_dead wf fresh cfg present (.inr status)

theorem moved_place (side : Side) (price qty : ℚ) (answers : s.replies ≠ [])
    (valid : side ≠ .invalid) :
    ∃ s', s.placeAndTrack .grid side price qty = .done s' ∧ Moved 1 (fun _ a => a) [] s s' := by
  obtain ⟨newId, accepted, -, -⟩ := fresh.next answers
  refine ⟨_, s.placeAndTrack_accepted accepted .grid side price qty, ?_⟩
  refine (moved_accept wf fresh accepted valid ?_).congr le_rfl fun i a _ => ?_
  · simp [Cause.parent]
  · simp [Cause.parent, Account.write]

end Assignments

theorem moved_grid (side : Side) (price : ℚ → ℚ) (qty : ℚ) (valid : side ≠ .invalid)
    (levels : List ℚ) (wf : s.WellFormed) (fresh : FreshReplies s.orderManager s.replies)
    (answers : levels.length ≤ s.replies.length) :
    ∃ s',
      Outcome.forEach (fun s i => s.placeAndTrack .grid side (price i) qty) s levels = .done s' ∧
      Moved levels.length (fun _ a => a) [] s s' := by
  induction levels generalizing s with
  | nil => exact ⟨s, rfl, Moved.refl wf fresh⟩
  | cons level levels ih =>
      have some : s.replies ≠ [] := by
        rintro none
        simp [none] at answers
      obtain ⟨s₁, placed, moved⟩ := moved_place wf fresh side (price level) qty some valid
      have left := moved.answers
      simp only [List.length_cons] at answers
      obtain ⟨s', rest, movedRest⟩ := ih moved.wellFormed moved.fresh (by omega)
      refine ⟨s', by simp only [Outcome.forEach_cons, placed, Outcome.bind_done, rest], ?_⟩
      exact (moved.trans movedRest fun _ _ _ => rfl).congr (by simp; omega) fun _ _ _ => rfl

theorem moved_start (cfg : GridConfig) (wf : s.WellFormed)
    (fresh : FreshReplies s.orderManager s.replies)
    (answers : cfg.levelsBelow.toNat + cfg.levelsAbove.toNat ≤ s.replies.length) :
    ∃ s' n, s.start cfg = .done s' ∧ Moved n (fun _ a => a) [] s s' := by
  unfold start
  simp only
  obtain ⟨s₁, below, moved⟩ := moved_grid .buy
    (fun i => cfg.basePrice * (1 - cfg.stepPercent * i)) cfg.percentOrderQty (by simp)
    ((List.range cfg.levelsBelow.toNat).map fun i : ℕ => (i : ℚ) + 1) wf fresh (by simp; omega)
  have left := moved.answers
  simp only [List.length_map, List.length_range] at left
  obtain ⟨s', above, moved'⟩ := moved_grid .sell
    (fun i => cfg.basePrice * (1 + cfg.stepPercent * i)) cfg.percentOrderQty (by simp)
    ((List.range cfg.levelsAbove.toNat).map fun i : ℕ => (i : ℚ) + 1) moved.wellFormed moved.fresh
    (by simp; omega)
  refine ⟨s', _, ?_, moved.trans moved' fun _ _ _ => rfl⟩
  simp only [below, Outcome.bind_done, above]

theorem moved_visits (cfg : GridConfig) (ids : List OrderId) (nodup : ids.Nodup)
    (wf : s.WellFormed) (fresh : FreshReplies s.orderManager s.replies)
    (active : ids ⊆ s.activeOrders) (answers : ids.length ≤ s.replies.length) :
    ∃ s', Outcome.forEach (visit cfg) s ids = .done s' ∧
      Moved ids.length (fun i a => if i ∈ ids then a.visit cfg s.orderManager.balance else a)
        (ids.filter s.closes) s s' := by
  induction ids generalizing s with
  | nil =>
      refine ⟨s, rfl, (Moved.refl wf fresh).congr le_rfl fun i a _ => ?_⟩
      simp
  | cons id ids ih =>
      obtain ⟨unseen, nodup⟩ := List.nodup_cons.mp nodup
      have here : id ∈ s.activeOrders := active List.mem_cons_self
      have later : ids ⊆ s.activeOrders := fun i member => active (List.mem_cons_of_mem id member)
      have some : s.replies ≠ [] := by
        rintro none
        simp [none] at answers
      obtain ⟨s₁, visited, moved⟩ := moved_visit wf fresh cfg some here
      have left := moved.answers
      simp only [List.length_cons] at answers
      obtain ⟨s', rest, movedRest⟩ := ih nodup moved.wellFormed moved.fresh
        (List.Subset.trans later moved.active) (by omega)
      have cached : ∀ i ∈ s.activeOrders, (s.orderManager.orders i).isSome := fun i tracked =>
        wf.placed i (wf.tracked i tracked)
      have absent : ∀ i, s.account i = none → i ∉ ids := by
        intro i absent member
        have none := s.account_eq_none.mp absent (wf.tracked i (later member))
        simpa [none] using cached i (later member)
      have removed : (if s.closes id then [id] else []) ++ ids.filter s₁.closes =
          (id :: ids).filter s.closes := by
        have same : ids.filter s₁.closes = ids.filter s.closes := by
          apply List.filter_congr
          intro i member
          simp only [closes, moved.orders i (cached i (later member))]
        rw [same, List.filter_cons]
        split <;> rfl
      refine ⟨s', by simp only [Outcome.forEach_cons, visited, Outcome.bind_done, rest], ?_⟩
      rw [← removed]
      refine (moved.trans movedRest fun i none a => if_neg (absent i none)).congr
        (by simp; omega) fun i a _ => ?_
      rw [moved.balance]
      by_cases same : i = id
      · subst same
        simp [unseen]
      · simp [same]

end GridStrategy

end SpotGridBot.Strategy
