import SpotGridBot.Strategy.Storage

namespace SpotGridBot.Strategy
open Utils SpotGridBot.Core Runs

def IsNumber {α : Type} [Sub α] [Doubles α] (filled : α) : Prop :=
  Doubles.isTrue (Doubles.round (filled - filled)) = false

instance {α : Type} [Sub α] [Doubles α] (filled : α) : Decidable (IsNumber filled) :=
  inferInstanceAs (Decidable (_ = false))

namespace GridStrategy

section Settled
variable {α : Type} [Zero α] [Sub α] [Doubles α] {s : GridStrategy α} {orderId : OrderId}

def Settled (s : GridStrategy α) (i : OrderId) : Prop :=
  ∀ order, s.orderManager.orders i = some order →
    order.status = .new ∨ order.status = .partiallyFilled ∧
      ∃ known, s.knownFills i = some known ∧
        Doubles.isTrue (Doubles.round (order.filled - known)) = false

omit [Zero α] [Sub α] [Doubles α] in
theorem setKnown_self {known : α} (here : s.knownFills orderId = some known) :
    s.setKnown orderId known = s := by
  simp only [setKnown, ← here, Function.update_eq_self]

omit [Zero α] in
theorem settled_remove {i : OrderId} (settled : s.Settled i) (other : i ≠ orderId) :
    (s.remove orderId).Settled i := by
  unfold Settled at settled ⊢
  simpa [remove, other] using settled

omit [Zero α] in
theorem settled_removeAll {i : OrderId} {orderIds : List OrderId} (settled : s.Settled i)
    (kept : i ∉ orderIds) : (s.removeAll orderIds).Settled i := by
  induction orderIds generalizing s with
  | nil => exact settled
  | cons orderId orderIds ih =>
      obtain ⟨other, later⟩ := not_or.mp (mt List.mem_cons.mpr kept)
      exact ih (settled_remove settled other) later

structure Passing (rest : List OrderId) (answers : ℕ) (s : GridStrategy α) : Prop where
  noEmpty : s.orderManager.orders "" = none
  numbers : ∀ i order, s.orderManager.orders i = some order → order.status = .partiallyFilled →
    IsNumber order.filled
  fresh : FreshIds s.orderManager s.replies
  supplied : answers ≤ s.replies.length
  answered : ∀ reply ∈ s.replies, reply.throws = false
  settled : ∀ i ∈ s.activeOrders, i ∈ rest ∨ i ∈ s.toRemove ∨ s.Settled i

namespace Passing
variable {rest : List OrderId} {answers : ℕ}

omit [Zero α] in
theorem fewer (passing : Passing rest (answers + 1) s) : Passing rest answers s :=
  { passing with supplied := (Nat.le_succ answers).trans passing.supplied }

omit [Zero α] in
theorem frame (passing : Passing rest answers s) {s' : GridStrategy α}
    (orderManager : s'.orderManager = s.orderManager) (replies : s'.replies = s.replies)
    (active : s'.activeOrders = s.activeOrders) (marks : s.toRemove ⊆ s'.toRemove)
    (known : ∀ i ∈ s.activeOrders, i ∈ rest ∨ s'.knownFills i = s.knownFills i) :
    Passing rest answers s' where
  noEmpty := orderManager ▸ passing.noEmpty
  numbers := orderManager ▸ passing.numbers
  fresh := by
    rw [orderManager, replies]
    exact passing.fresh
  supplied := replies ▸ passing.supplied
  answered := replies ▸ passing.answered
  settled := by
    intro i member
    have member := active ▸ member
    rcases passing.settled i member with later | marked | settled
    · exact .inl later
    · exact .inr (.inl (marks marked))
    · cases known i member with
      | inl later => exact .inl later
      | inr same =>
          refine .inr (.inr ?_)
          unfold Settled
          rw [orderManager, same]
          exact settled

theorem place (passing : Passing rest (answers + 1) s) (cause : Cause) (side : Side)
    (price qty : α) :
    (s.placeAndTrack cause side price qty).Ends (Passing rest answers) fun _ => False := by
  have consumed : answers ≤ s.replies.tail.length := by
    have supplied := passing.supplied
    rw [List.length_tail]
    omega
  have later : ∀ reply ∈ s.replies.tail, reply.throws = false := fun reply member =>
    passing.answered reply (List.mem_of_mem_tail member)
  have answers' : s.nextReply.throws = false := by
    unfold nextReply
    cases replies : s.replies with
    | nil =>
        have supplied := passing.supplied
        simp [replies] at supplied
    | cons reply replies' => exact passing.answered reply (by simp [replies])
  rcases s.placeAndTrack_cases cause side price qty with
    ⟨throws, -, -⟩ | ⟨-, -, ends⟩ | ⟨newId, -, accepted, ends⟩
  · simp [answers'] at throws
  · rw [ends]
    exact
      { noEmpty := passing.noEmpty
        numbers := passing.numbers
        fresh := passing.fresh.tail
        supplied := consumed
        answered := later
        settled := by
          intro i member
          rcases List.mem_append.mp member with old | new
          · exact passing.settled i old
          · refine .inr (.inr fun order cached => ?_)
            obtain rfl := List.mem_singleton.mp new
            have unknown := passing.noEmpty.symm.trans cached
            contradiction }
  · rw [ends]
    obtain ⟨nonempty, -, fresh⟩ := passing.fresh.next accepted
    have placed : ∀ order, (s.accept cause newId ⟨side, price, qty⟩).orderManager.orders newId =
        some order → order.status = .new := by
      intro order cached
      have same : (⟨newId, side, price, qty, 0, .new⟩ : Order α) = order := by
        simpa using cached
      rw [← same]
    exact
      { noEmpty := by
          simp [Ne.symm nonempty, passing.noEmpty]
        numbers := by
          intro i order cached partiallyFilled
          by_cases here : i = newId
          · subst here
            simp [placed order cached] at partiallyFilled
          · exact passing.numbers i order (by simpa [here] using cached) partiallyFilled
        fresh := fresh _
        supplied := consumed
        answered := later
        settled := by
          intro i member
          by_cases here : i = newId
          · subst here
            exact .inr (.inr fun order cached => .inl (placed order cached))
          · have old : i ∈ s.activeOrders := by
              simpa [here] using member
            rcases passing.settled i old with unvisited | marked | settled
            · exact .inl unvisited
            · exact .inr (.inl marked)
            · refine .inr (.inr fun order cached => settled order ?_)
              simpa [here] using cached }

omit [Zero α] in
theorem visited (passing : Passing (orderId :: rest) answers s)
    (done : orderId ∈ s.toRemove ∨ s.Settled orderId) : Passing rest answers s :=
  { passing with
    settled := by
      intro i member
      rcases passing.settled i member with unvisited | finished
      · cases unvisited with
        | head => exact .inr done
        | tail _ later => exact .inl later
      · exact .inr finished }

omit [Zero α] in
theorem mark (passing : Passing (orderId :: rest) answers s) :
    Passing rest answers (s.markForRemoval orderId) := by
  have marked : Passing (orderId :: rest) answers (s.markForRemoval orderId) :=
    passing.frame rfl rfl rfl (List.subset_append_left _ _) fun _ _ => .inr rfl
  exact marked.visited (.inl (List.mem_append_right _ (List.mem_singleton_self orderId)))

theorem touch (passing : Passing rest answers s) :
    Passing rest answers (s.touchDetails orderId) :=
  passing.frame rfl rfl rfl (List.Subset.refl _) fun _ _ => .inr rfl

omit [Zero α] in
theorem decline (passing : Passing rest (answers + 1) s) (cause : Cause) (qty : α) :
    Passing rest answers (s.record (.declined cause qty)) :=
  passing.fewer.frame rfl rfl rfl (List.Subset.refl _) fun _ _ => .inr rfl

omit [Zero α] in
theorem setKnown (passing : Passing (orderId :: rest) answers s) {order : Order α}
    (cached : s.orderManager.orders orderId = some order)
    (partiallyFilled : order.status = .partiallyFilled) {known : α}
    (seen : Doubles.isTrue (Doubles.round (order.filled - known)) = false) :
    Passing rest answers (s.setKnown orderId known) := by
  have noted : Passing (orderId :: rest) answers (s.setKnown orderId known) := by
    refine passing.frame rfl rfl rfl (List.Subset.refl _) fun i _ => ?_
    by_cases here : i = orderId
    · exact .inl (here ▸ List.mem_cons_self)
    · exact .inr (by simp [GridStrategy.setKnown, here])
  apply noted.visited
  refine .inr fun order' cached' => .inr ?_
  obtain rfl : order = order' := Option.some.inj (cached.symm.trans cached')
  exact ⟨partiallyFilled, known, by simp [GridStrategy.setKnown], seen⟩

end Passing

end Settled

section Pass
variable {α : Type} [Zero α] [One α] [Add α] [Sub α] [Mul α] [LE α] [LT α] [DecidableLE α]
  [DecidableLT α] [Doubles α] (cfg : GridConfig α) {s : GridStrategy α} {orderId : OrderId}

theorem Passing.visit {rest : List OrderId} {answers : ℕ}
    (passing : Passing (orderId :: rest) (answers + 1) s) :
    (s.visit cfg orderId).Ends (Passing rest answers) fun _ => False := by
  cases cached : s.orderManager.orders orderId with
  | none =>
      rw [visit_unknown cfg cached]
      exact passing.fewer.visited (.inr fun order present => by simp [cached] at present)
  | some order =>
      cases status : order.status with
      | new =>
          rw [visit_new cfg cached status]
          refine passing.fewer.visited (.inr fun order' cached' => .inl ?_)
          obtain rfl : order = order' := Option.some.inj (cached.symm.trans cached')
          exact status
      | canceled =>
          rw [visit_dead cfg cached (.inl status)]
          exact passing.fewer.mark
      | rejected =>
          rw [visit_dead cfg cached (.inr status)]
          exact passing.fewer.mark
      | filled =>
          rw [visit_hedgeFilled cfg cached status]
          have hedged : (s.hedgeFilled cfg orderId).Ends (Passing (orderId :: rest) answers)
              fun _ => False := by
            apply hedgeFilled_rule
            · exact passing.touch.decline _ _
            · exact fun _ side price => passing.touch.place _ side price _
          exact hedged.bind fun s passing => passing.mark
      | partiallyFilled =>
          cases newFill : Doubles.isTrue (Doubles.round (order.filled - s.knownFilled orderId)) with
          | false =>
              rw [visit_seen cfg cached status newFill]
              exact passing.fewer.setKnown cached status newFill
          | true =>
              rw [visit_hedgePartial cfg cached status newFill]
              have noted := passing.setKnown cached status (passing.numbers _ _ cached status)
              apply hedgePartial_rule
              · exact noted.touch.decline _ _
              · exact fun _ side price => noted.touch.place _ side price _

theorem visit_settled (settled : s.Settled orderId) : s.visit cfg orderId = .done s := by
  cases cached : s.orderManager.orders orderId with
  | none => exact visit_unknown cfg cached
  | some order =>
      cases settled order cached with
      | inl new => exact visit_new cfg cached new
      | inr seen =>
          obtain ⟨partiallyFilled, known, here, noNewFill⟩ := seen
          have same : s.knownFilled orderId = known := by simp [knownFilled, here]
          rw [visit_seen cfg cached partiallyFilled (same.symm ▸ noNewFill), same,
            setKnown_self here]

omit [Add α] [DecidableLE α] [DecidableLT α] in
theorem not_hedges_of_settled (settled : s.Settled orderId) : ¬ s.Hedges cfg orderId := by
  rintro ⟨-, order, cached, due⟩
  rcases settled order cached with new | ⟨partiallyFilled, known, here, noNewFill⟩
  · simp [new] at due
  · have same : s.knownFilled orderId = known := by simp [knownFilled, here]
    simp [partiallyFilled, same, noNewFill] at due

section Settled
variable (settled : ∀ i ∈ s.activeOrders, s.Settled i)
include settled

theorem hasRoom_settled (capacity : ℕ) : s.HasRoom cfg capacity := by
  let Inv (rest : List OrderId) (s' : GridStrategy α) : Prop :=
    s' = { s with toRemove := [] } ∧ rest ⊆ s.activeOrders
  have keeps : ∀ i rest s', Inv (i :: rest) s' →
      (GridStrategy.visit cfg s' i).Ends (Inv rest) fun _ => True := by
    rintro i rest s' ⟨rfl, active⟩
    obtain ⟨here, later⟩ := List.cons_subset.mp active
    have unchanged : GridStrategy.visit cfg { s with toRemove := [] } i =
        .done { s with toRemove := [] } := visit_settled cfg (settled i here)
    rw [unchanged]
    exact ⟨rfl, later⟩
  rintro ⟨s', i⟩ member hedges
  obtain ⟨rest, rfl, active⟩ :=
    Outcome.iterations_invariant keeps ⟨rfl, List.Subset.refl s.activeOrders⟩ _ member
  have here := (List.cons_subset.mp active).1
  exact absurd hedges (not_hedges_of_settled cfg (s := { s with toRemove := [] }) (settled i here))

theorem checkFilledOrders_settled :
    s.checkFilledOrders cfg = .done { s with toRemove := [] } := by
  have visits : ∀ orderIds : List OrderId, orderIds ⊆ s.activeOrders →
      Outcome.forEach (visit cfg) { s with toRemove := [] } orderIds =
        .done { s with toRemove := [] } := by
    intro orderIds active
    induction orderIds with
    | nil => rfl
    | cons orderId orderIds ih =>
        obtain ⟨here, later⟩ := List.cons_subset.mp active
        have unchanged : GridStrategy.visit cfg { s with toRemove := [] } orderId =
            .done { s with toRemove := [] } := visit_settled cfg (settled orderId here)
        rw [Outcome.forEach_cons, unchanged, Outcome.bind_done, ih later]
  rw [checkFilledOrders, visits s.activeOrders (List.Subset.refl _)]
  rfl

end Settled

theorem checkFilledOrders_settles
    (passing : Passing s.activeOrders s.activeOrders.length { s with toRemove := [] }) :
    (s.checkFilledOrders cfg).Ends (fun s => ∀ i ∈ s.activeOrders, s.Settled i)
      fun _ => False := by
  refine (Outcome.forEach_ends (fun rest => Passing rest rest.length) ?_ passing).bind ?_
  · exact fun orderId rest s passing => passing.visit cfg
  · intro s passing i member
    obtain ⟨-, remaining⟩ := s.removeAll_books s.toRemove
    simp only [remaining] at member
    obtain ⟨tracked, kept⟩ := List.mem_filter.mp member
    have unmarked : i ∉ s.toRemove := by simpa using kept
    rcases passing.settled i tracked with unvisited | marked | settled
    · exact absurd unvisited List.not_mem_nil
    · exact absurd marked unmarked
    · exact settled_removeAll settled unmarked

end Pass

section Cache
variable {α : Type} [Zero α] [Sub α] [Doubles α] {s : GridStrategy α}

structure Sound (m : OrderManager α) : Prop where
  noEmpty : m.orders "" = none
  numbers : ∀ i order, m.orders i = some order → order.status = .partiallyFilled →
    IsNumber order.filled

omit [Zero α] in
theorem Sound.store {m : OrderManager α} (sound : Sound m) {orderId : OrderId}
    (nonempty : orderId ≠ "") {order : Order α}
    (number : order.status = .partiallyFilled → IsNumber order.filled) :
    Sound (m.store orderId order) where
  noEmpty := by simp [Ne.symm nonempty, sound.noEmpty]
  numbers i cached here := by
    by_cases same : i = orderId
    · obtain rfl : order = cached := by simpa [same] using here
      exact number
    · exact sound.numbers i cached (by simpa [same] using here)

def SoundFresh (s : GridStrategy α) : Prop :=
  Sound s.orderManager ∧ FreshIds s.orderManager s.replies

theorem SoundFresh.place (kept : s.SoundFresh) (cause : Cause) (side : Side) (price qty : α) :
    (s.placeAndTrack cause side price qty).Ends SoundFresh fun s => Sound s.orderManager := by
  apply place_rule
  · exact kept.1
  · exact fun _ _ => ⟨kept.1, kept.2.tail⟩
  · intro newId accepted
    obtain ⟨nonempty, -, next⟩ := kept.2.next accepted
    exact ⟨kept.1.store nonempty fun status => by simp at status, next _⟩

end Cache

end GridStrategy

open GridStrategy

section Runs
variable {α : Type} [Zero α] [One α] [NatCast α] [Add α] [Sub α] [Mul α] [LE α] [LT α]
  [DecidableLE α] [DecidableLT α] [Doubles α] (spare : ℕ → ℕ) (cfg : GridConfig α)

def ReportsNumbers (_ : GridStrategy α) : Event α → Prop
  | .updateOrder _ _ filled => IsNumber filled
  | .syncOrder _ _ _ _ _ filled => IsNumber filled
  | _ => True

instance (s : GridStrategy α) : (e : Event α) → Decidable (ReportsNumbers s e)
  | .updateOrder _ _ filled => inferInstanceAs (Decidable (IsNumber filled))
  | .syncOrder _ _ _ _ _ filled => inferInstanceAs (Decidable (IsNumber filled))
  | .start _ => .isTrue trivial
  | .checkFilledOrders _ => .isTrue trivial
  | .setBalance _ _ => .isTrue trivial

theorem sound_step (s : GridStrategy α) (e : Event α)
    (permitted : Permitted s e ∧ ReportsNumbers s e) (sound : Sound s.orderManager) :
    Sound (step cfg s e).orderManager := by
  obtain ⟨permitted, numbers⟩ := permitted
  cases e with
  | start replies =>
      have opened : SoundFresh { s with replies := replies } := ⟨sound, permitted⟩
      have placed : (GridStrategy.start cfg { s with replies := replies }).Ends SoundFresh
          fun s => Sound s.orderManager := by
        refine (Outcome.forEach_ends (fun _ => SoundFresh) ?_ opened).bind fun s kept =>
          Outcome.forEach_ends (fun _ => SoundFresh) ?_ kept
        · exact fun i rest s kept => kept.place .grid .buy _ _
        · exact fun i rest s kept => kept.place .grid .sell _ _
      exact (placed.mono (fun s kept => kept.1) fun s kept => kept).state
  | checkFilledOrders replies =>
      have opened : SoundFresh { s with replies := replies } := ⟨sound, permitted⟩
      have passed : (GridStrategy.checkFilledOrders cfg { s with replies := replies }).Ends
          (fun s => Sound s.orderManager) fun s => Sound s.orderManager := by
        unfold GridStrategy.checkFilledOrders
        refine (Outcome.forEach_ends (fun _ => SoundFresh) ?_ ?_).bind ?_
        · intro orderId rest s kept
          apply visit_rule cfg SoundFresh
          · exact fun s kept => kept
          · exact fun s filled kept => kept
          · exact fun s cause qty kept => kept
          · exact fun s kept => kept
          · exact fun s cause side price qty kept => kept.place cause side price qty
          · exact kept
        · exact opened
        · intro s kept
          obtain ⟨orderManager, -⟩ := s.removeAll_books s.toRemove
          show Sound (s.removeAll s.toRemove).orderManager
          rw [orderManager]
          exact kept.1
      exact passed.state
  | updateOrder orderId status filled =>
      show Sound (s.orderManager.updateOrder orderId status filled)
      unfold OrderManager.updateOrder
      cases cached : s.orderManager.orders orderId with
      | none => exact sound
      | some order =>
          have nonempty : orderId ≠ "" := by
            rintro rfl
            simp [sound.noEmpty] at cached
          exact sound.store nonempty fun _ => numbers
  | syncOrder orderId side price quantity status filled =>
      show Sound (s.orderManager.syncOrder orderId side price quantity status filled)
      unfold OrderManager.syncOrder
      cases s.orderManager.orders orderId with
      | none => exact sound.store permitted fun _ => numbers
      | some order => exact sound.store permitted fun _ => numbers
  | setBalance currency amount => exact ⟨sound.noEmpty, sound.numbers⟩

def Answered (replies : List Reply) (s : GridStrategy α) : Prop :=
  FreshIds s.orderManager replies ∧ s.activeOrders.length ≤ replies.length ∧
    ∀ reply ∈ replies, reply.throws = false

instance (replies : List Reply) (s : GridStrategy α) : Decidable (Answered replies s) :=
  inferInstanceAs (Decidable (_ ∧ _ ∧ ∀ reply ∈ replies, _))

def PassesIdly (again : List Reply) (r : Option (Stored α)) : Prop :=
  ∃ first ∈ r, ∃ second ∈ Stored.step spare cfg r (.checkFilledOrders again),
    second.strategy.history = first.strategy.history ∧
    second.strategy.orderManager = first.strategy.orderManager ∧
    second.strategy.activeOrders = first.strategy.activeOrders ∧
    second.strategy.orderDetails = first.strategy.orderDetails ∧
    second.strategy.knownFills = first.strategy.knownFills

theorem pass_settles {s : GridStrategy α} {events : List (Event α)} {m : OrderManager α}
    (sound : Sound m) (ran : run (step cfg) { orderManager := m } events = s)
    (permitted : Along (step cfg) Permitted { orderManager := m } events)
    (numbers : Along (step cfg) ReportsNumbers { orderManager := m } events) (replies : List Reply)
    (answered : Answered replies s) :
    ∀ i ∈ (step cfg s (.checkFilledOrders replies)).activeOrders,
      (step cfg s (.checkFilledOrders replies)).Settled i := by
  have kept : Sound s.orderManager := by
    have always : Always (step cfg) (fun s => Sound s.orderManager) { orderManager := m } events :=
      always_of_invariant (sound_step cfg) sound (permitted.and numbers)
    exact ran ▸ always.last
  obtain ⟨fresh, supplied, answers⟩ := answered
  have passing : Passing s.activeOrders s.activeOrders.length
      { s with replies := replies, toRemove := [] } :=
    ⟨kept.noEmpty, kept.numbers, fresh, supplied, answers, fun i member => .inl member⟩
  have settles := checkFilledOrders_settles cfg (s := { s with replies := replies }) passing
  exact (settles.mono (fun s' => id) fun s' => False.elim).state

/-- The second of two passes in a row changes nothing and asks for nothing, where every reported
fill is a number and the hedges before it find room in the vector. -/
theorem stored_pass_idempotent (balance : Currency → α) (capacity : ℕ) (events : List (Event α))
    (replies again : List Reply)
    (permitted : Along (Stored.step spare cfg) (Stored.Permits Permitted)
      (some ⟨{ orderManager := ⟨fun _ => none, balance⟩ }, capacity⟩) events)
    (answered : ∀ r ∈ run (Stored.step spare cfg)
      (some ⟨{ orderManager := ⟨fun _ => none, balance⟩ }, capacity⟩) events,
      Answered replies r.strategy)
    (meets : Along (Stored.step spare cfg) (Stored.Meets cfg ReportsNumbers)
      (some ⟨{ orderManager := ⟨fun _ => none, balance⟩ }, capacity⟩)
      (events ++ [.checkFilledOrders replies])) :
    PassesIdly spare cfg again (run (Stored.step spare cfg)
      (some ⟨{ orderManager := ⟨fun _ => none, balance⟩ }, capacity⟩)
      (events ++ [.checkFilledOrders replies])) := by
  have fits : ({ orderManager := ⟨fun _ => none, balance⟩ } : GridStrategy α).activeOrders.length ≤
      capacity := Nat.zero_le capacity
  obtain ⟨before, last⟩ := along_append.mp meets
  obtain ⟨roomy, numbers⟩ := (Stored.along_meets_iff spare cfg fits).mp before
  have allowed := Stored.along_permits spare cfg fits permitted roomy
  obtain ⟨capacity₁, ran, fits₁⟩ := Stored.run_roomy spare cfg fits roomy
  rw [ran] at last answered
  have room := ((Stored.meets_some cfg).mp last.1).1
  obtain ⟨capacity₂, first, fits₂⟩ := Stored.step_room spare cfg fits₁ room
  have sound : Sound (⟨fun _ => none, balance⟩ : OrderManager α) := ⟨rfl, by simp⟩
  have settled := pass_settles cfg sound rfl allowed numbers replies (answered _ rfl)
  generalize step cfg _ (.checkFilledOrders replies) = s at first fits₂ settled
  have roomAgain : s.RoomFor cfg capacity₂ (.checkFilledOrders again) :=
    hasRoom_settled cfg (s := { s with replies := again }) settled capacity₂
  obtain ⟨capacity₃, second, -⟩ := Stored.step_room spare cfg fits₂ roomAgain
  have unchanged : step cfg s (.checkFilledOrders again) =
      { s with replies := again, toRemove := [] } := by
    show (GridStrategy.checkFilledOrders cfg { s with replies := again }).state = _
    rw [checkFilledOrders_settled cfg (s := { s with replies := again }) settled]
    rfl
  rw [run_append, ran, run_cons, run_nil, first]
  refine ⟨_, rfl, _, second, ?_⟩
  rw [unchanged]
  exact ⟨rfl, rfl, rfl, rfl, rfl⟩

end Runs

/-- The grid over `double`. -/
def doubles : GridConfig Float where
  instrument := ⟨Currency.eur, Currency.usd⟩
  basePrice := 100
  levelsBelow := 5
  levelsAbove := 0
  stepPercent := 0.01
  percentOrderQty := 10
  maxPosition := 1000

def notANumber : List (Event Float) := [
  .start [.accepted "1", .accepted "2", .accepted "3", .accepted "4", .accepted "5"],
  .updateOrder "1" .partiallyFilled (0 / 0)]

theorem notANumber_hedgesAgain :
    Along (Stored.step Growing.doubling doubles) (Stored.Permits Permitted)
      (some ⟨{ orderManager := ⟨fun _ => none, fun _ => 0⟩ }, 0⟩) notANumber ∧
    (∀ r ∈ run (Stored.step Growing.doubling doubles)
      (some ⟨{ orderManager := ⟨fun _ => none, fun _ => 0⟩ }, 0⟩) notANumber,
      Answered [.accepted "6", .unknownConnection, .unknownConnection, .unknownConnection,
        .unknownConnection] r.strategy) ∧
    ¬ PassesIdly Growing.doubling doubles [.accepted "7"]
      (run (Stored.step Growing.doubling doubles)
        (some ⟨{ orderManager := ⟨fun _ => none, fun _ => 0⟩ }, 0⟩)
        (notANumber ++ [.checkFilledOrders [.accepted "6", .unknownConnection, .unknownConnection,
          .unknownConnection, .unknownConnection]])) := by
  refine ⟨by decide +kernel, by decide +kernel, ?_⟩
  rintro ⟨first, ran, second, passed, -, -, same, -, -⟩
  have one : ((run (Stored.step Growing.doubling doubles)
      (some ⟨{ orderManager := ⟨fun _ => none, fun _ => 0⟩ }, 0⟩)
      (notANumber ++ [.checkFilledOrders [.accepted "6", .unknownConnection, .unknownConnection,
        .unknownConnection, .unknownConnection]])).map fun r => r.strategy.activeOrders) =
      some ["1", "2", "3", "4", "5", "6"] := by decide +kernel
  have two : ((Stored.step Growing.doubling doubles (run (Stored.step Growing.doubling doubles)
      (some ⟨{ orderManager := ⟨fun _ => none, fun _ => 0⟩ }, 0⟩)
      (notANumber ++ [.checkFilledOrders [.accepted "6", .unknownConnection, .unknownConnection,
        .unknownConnection, .unknownConnection]])) (.checkFilledOrders [.accepted "7"])).map
          fun r => r.strategy.activeOrders) =
      some ["1", "2", "3", "4", "5", "6", "7"] := by decide +kernel
  rw [Option.mem_def.mp ran] at one
  rw [Option.mem_def.mp passed] at two
  simp only [Option.map_some, Option.some.injEq] at one two
  simp [one, two] at same

theorem stored_pass_idempotent_partialFill :
    PassesIdly Growing.doubling doubles [.accepted "7"]
      (run (Stored.step Growing.doubling doubles)
        (some ⟨{ orderManager := ⟨fun _ => none, fun _ => 0⟩ }, 0⟩)
        ([.start [.accepted "1", .accepted "2", .accepted "3", .accepted "4", .accepted "5"],
          .updateOrder "1" .partiallyFilled 4] ++
          [.checkFilledOrders [.accepted "6", .unknownConnection, .unknownConnection,
            .unknownConnection, .unknownConnection]])) :=
  stored_pass_idempotent Growing.doubling doubles (fun _ => 0) 0 _ _ _ (by decide +kernel)
    (by decide +kernel) (by decide +kernel)

end SpotGridBot.Strategy
