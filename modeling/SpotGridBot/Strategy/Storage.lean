import SpotGridBot.Strategy.Rules
import SpotGridBot.Lib.Growing

/-!
# The storage of the active orders

`CheckFilledOrders` goes over `m_activeOrders` while its hedges are appended to it. Where one of
them moves the storage, the rest of the pass reads freed memory.
-/

namespace SpotGridBot.Strategy
open Utils SpotGridBot.Core Runs

namespace GridStrategy

theorem length_removeAll {α : Type} (s : GridStrategy α) (orderIds : List OrderId) :
    (s.removeAll orderIds).activeOrders.length ≤ s.activeOrders.length := by
  induction orderIds generalizing s with
  | nil => exact le_rfl
  | cons orderId orderIds ih => exact (ih (s.remove orderId)).trans (List.length_filter_le _ _)

theorem length_start {α : Type} [Zero α] [One α] [NatCast α] [Add α] [Sub α] [Mul α]
    (cfg : GridConfig α) (s : GridStrategy α) :
    s.activeOrders.length ≤ (s.start cfg).state.activeOrders.length := by
  have grows : ∀ (cause : Cause) (side : Side) (price qty : α) (s' : GridStrategy α),
      s.activeOrders.length ≤ s'.activeOrders.length →
      (s'.placeAndTrack cause side price qty).Ends
        (fun s' => s.activeOrders.length ≤ s'.activeOrders.length)
        fun s' => s.activeOrders.length ≤ s'.activeOrders.length := by
    intro cause side price qty s' longer
    rcases s'.placeAndTrack_cases cause side price qty with
      ⟨-, -, ends⟩ | ⟨-, -, ends⟩ | ⟨newId, -, -, ends⟩
    · rw [ends]
      exact longer
    · rw [ends]
      exact longer.trans (by simp)
    · rw [ends]
      exact longer.trans (by simp)
  have ends : (s.start cfg).Ends (fun s' => s.activeOrders.length ≤ s'.activeOrders.length)
      fun s' => s.activeOrders.length ≤ s'.activeOrders.length :=
    (Outcome.forEach_ends (fun _ s' => s.activeOrders.length ≤ s'.activeOrders.length)
      (fun _ _ s' longer => grows _ _ _ _ s' longer) le_rfl).bind fun s' longer =>
        Outcome.forEach_ends (fun _ s' => s.activeOrders.length ≤ s'.activeOrders.length)
          (fun _ _ s' longer => grows _ _ _ _ s' longer) longer
  exact ends.state

variable {α : Type} [Zero α] [One α] [Add α] [Sub α] [Mul α] [LE α] [LT α] [DecidableLE α]
  [DecidableLT α] [Doubles α] (cfg : GridConfig α) (s : GridStrategy α) (orderId : OrderId)

def Hedges : Prop :=
  s.nextReply.throws = false ∧ ∃ order ∈ s.orderManager.orders orderId,
    (order.status = .filled ∧ s.PassesFilled cfg orderId) ∨
    (order.status = .partiallyFilled ∧
      Doubles.isTrue (Doubles.round (order.filled - s.knownFilled orderId)) = true ∧
      s.PassesPartial cfg orderId (order.filled - s.knownFilled orderId))

instance : Decidable (s.Hedges cfg orderId) :=
  inferInstanceAs (Decidable (_ ∧ ∃ order ∈ s.orderManager.orders orderId, _))

def HasRoom (capacity : ℕ) : Prop :=
  ∀ v ∈ s.visits cfg, v.1.Hedges cfg v.2 → v.1.activeOrders.length < capacity

instance (capacity : ℕ) : Decidable (s.HasRoom cfg capacity) :=
  inferInstanceAs (Decidable (∀ v ∈ s.visits cfg, _ → _))

def RoomFor [NatCast α] (capacity : ℕ) : Event α → Prop
  | .checkFilledOrders replies => HasRoom cfg { s with replies := replies } capacity
  | _ => True

instance [NatCast α] (capacity : ℕ) : (e : Event α) → Decidable (s.RoomFor cfg capacity e)
  | .checkFilledOrders _ => inferInstanceAs (Decidable (HasRoom _ _ _))
  | .start _ => .isTrue trivial
  | .updateOrder _ _ _ => .isTrue trivial
  | .syncOrder _ _ _ _ _ _ => .isTrue trivial
  | .setBalance _ _ => .isTrue trivial

variable {s orderId}

omit [One α] [Add α] [Sub α] [Mul α] [LE α] [LT α] [DecidableLE α] [DecidableLT α] [Doubles α] in
theorem appends_hedge {s' : GridStrategy α} {cause : Cause} {qty : α} {passes : Prop}
    [Decidable passes] {outcome : Outcome (GridStrategy α)}
    (active : s'.activeOrders = s.activeOrders) (replies : s'.replies = s.replies)
    {side : Side} {price : α} (hedged : (passes ∧ outcome = s'.placeAndTrack cause side price qty) ∨
      (¬ passes ∧ outcome = .done (s'.record (.declined cause qty)))) :
    ∃ tracked, outcome.state.activeOrders = s.activeOrders ++ tracked ∧
      tracked.length = if s.nextReply.throws = false ∧ passes then 1 else 0 := by
  have next : s'.nextReply = s.nextReply := congrArg (fun r => r.head?.getD .lost) replies
  rcases hedged with ⟨passed, rfl⟩ | ⟨declined, rfl⟩
  · rw [← next, ← active]
    rcases s'.placeAndTrack_cases cause side price qty with
      ⟨throws, -, ends⟩ | ⟨answers, -, ends⟩ | ⟨newId, answers, -, ends⟩
    · exact ⟨[], by simp [ends, abort, record], by simp [throws]⟩
    · exact ⟨[""], by simp [ends], by simp [answers, passed]⟩
    · exact ⟨[newId], by simp [ends], by simp [answers, passed]⟩
  · exact ⟨[], by simp [record, active], by simp [declined]⟩

theorem visit_appends : Growing.Appends activeOrders (visit cfg) (Hedges cfg) := by
  intro s orderId
  have idle : ∀ s' : GridStrategy α, s.visit cfg orderId = .done s' →
      s'.activeOrders = s.activeOrders → ¬ s.Hedges cfg orderId →
      ∃ tracked, (s.visit cfg orderId).state.activeOrders = s.activeOrders ++ tracked ∧
        tracked.length = if s.Hedges cfg orderId then 1 else 0 := by
    intro s' ends same nothing
    exact ⟨[], by simp [ends, same], by simp [nothing]⟩
  cases cached : s.orderManager.orders orderId with
  | none => exact idle s (visit_unknown cfg cached) rfl (by simp [Hedges, cached])
  | some order =>
      cases status : order.status with
      | new => exact idle s (visit_new cfg cached status) rfl (by simp [Hedges, cached, status])
      | canceled =>
          exact idle _ (visit_dead cfg cached (.inl status)) rfl (by simp [Hedges, cached, status])
      | rejected =>
          exact idle _ (visit_dead cfg cached (.inr status)) rfl (by simp [Hedges, cached, status])
      | filled =>
          have hedges : s.Hedges cfg orderId ↔
              s.nextReply.throws = false ∧ s.PassesFilled cfg orderId := by
            simp [Hedges, cached, status]
          obtain ⟨tracked, appended, count⟩ := appends_hedge (s := s)
            (rfl : (s.touchDetails orderId).activeOrders = s.activeOrders) rfl
            (s.hedgeFilled_cases cfg orderId)
          refine ⟨tracked, ?_, by simpa only [hedges] using count⟩
          rw [visit_hedgeFilled cfg cached status]
          cases ends : s.hedgeFilled cfg orderId with
          | done s' =>
              rw [ends] at appended
              exact appended
          | thrown s' =>
              rw [ends] at appended
              exact appended
      | partiallyFilled =>
          cases newFill : Doubles.isTrue
            (Doubles.round (order.filled - s.knownFilled orderId)) with
          | false =>
              exact idle _ (visit_seen cfg cached status newFill) rfl
                (by simp [Hedges, cached, status, newFill])
          | true =>
              have hedges : s.Hedges cfg orderId ↔ s.nextReply.throws = false ∧
                  s.PassesPartial cfg orderId (order.filled - s.knownFilled orderId) := by
                simp [Hedges, cached, status, newFill]
              simp only [visit_hedgePartial cfg cached status newFill, hedges]
              exact appends_hedge (s := s)
                (rfl : ((s.setKnown orderId order.filled).touchDetails orderId).activeOrders =
                  s.activeOrders) rfl
                ((s.setKnown orderId order.filled).hedgePartial_cases cfg orderId _)

end GridStrategy

/-- The strategy, and the number of orders that the storage of `m_activeOrders` has room for. -/
structure Stored (α : Type := ℚ) where
  strategy : GridStrategy α
  capacity : ℕ

namespace Stored
variable {α : Type}

def Defined (P : GridStrategy α → Prop) (r : Option (Stored α)) : Prop := ∃ s ∈ r, P s.strategy

theorem defined_some {P : GridStrategy α → Prop} {r : Stored α} :
    Defined P (some r) ↔ P r.strategy := by
  simp [Defined]

def Behaves (next : Option (Stored α) → Event α → Option (Stored α))
    (P : GridStrategy α → Event α → Prop) (r : Option (Stored α)) (e : Event α) : Prop :=
  (next r e).isSome = true ∧ ∃ s ∈ r, P s.strategy e

def Permits (ok : GridStrategy α → Event α → Prop) (r : Option (Stored α)) (e : Event α) : Prop :=
  ∀ s ∈ r, ok s.strategy e

instance (ok : GridStrategy α → Event α → Prop) [∀ s e, Decidable (ok s e)]
    (r : Option (Stored α)) (e : Event α) : Decidable (Permits ok r e) :=
  inferInstanceAs (Decidable (∀ s ∈ r, ok s.strategy e))

variable [Zero α] [One α] [NatCast α] [Add α] [Sub α] [Mul α] [LE α] [LT α]
  [DecidableLE α] [DecidableLT α] [Doubles α] (spare : ℕ → ℕ) (cfg : GridConfig α)

def checkFilledOrders (r : Stored α) : Option (Outcome (GridStrategy α)) :=
  let s := { r.strategy with toRemove := [] }
  (Growing.rangeFor GridStrategy.activeOrders (GridStrategy.visit cfg) r.capacity
    s.activeOrders.length 0 s).map fun passed =>
      passed.bind fun s => .done { s.removeAll s.toRemove with toRemove := [] }

/-- `none` once a pass has read freed memory: the program may do anything from there on. -/
def step : Option (Stored α) → Event α → Option (Stored α)
  | none, _ => none
  | some r, .checkFilledOrders replies =>
      (checkFilledOrders cfg ⟨{ r.strategy with replies := replies }, r.capacity⟩).map fun passed =>
        ⟨passed.state, r.capacity⟩
  | some r, .start replies =>
      let s := Strategy.step cfg r.strategy (.start replies)
      let size := r.strategy.activeOrders.length
      some ⟨s, Growing.pushBacks spare (s.activeOrders.length - size) size r.capacity⟩
  | some r, e => some ⟨Strategy.step cfg r.strategy e, r.capacity⟩

def Meets (guard : GridStrategy α → Event α → Prop) (r : Option (Stored α)) (e : Event α) : Prop :=
  ∃ s ∈ r, s.strategy.RoomFor cfg s.capacity e ∧ guard s.strategy e

instance (guard : GridStrategy α → Event α → Prop) [∀ s e, Decidable (guard s e)]
    (r : Option (Stored α)) (e : Event α) : Decidable (Meets cfg guard r e) :=
  inferInstanceAs (Decidable (∃ s ∈ r, s.strategy.RoomFor cfg s.capacity e ∧ guard s.strategy e))

variable {s : GridStrategy α} {capacity : ℕ}

omit [NatCast α] in
theorem checkFilledOrders_eq (fits : s.activeOrders.length ≤ capacity) :
    checkFilledOrders cfg ⟨s, capacity⟩ =
      if s.HasRoom cfg capacity then some (s.checkFilledOrders cfg) else none := by
  have looped := Growing.rangeFor_eq (s := { s with toRemove := [] })
    (GridStrategy.visit_appends cfg) fits
  unfold checkFilledOrders GridStrategy.checkFilledOrders
  by_cases room : s.HasRoom cfg capacity
  · rw [if_pos room]
    exact congrArg (Option.map _) (looped.trans (if_pos room))
  · rw [if_neg room]
    exact congrArg (Option.map _) (looped.trans (if_neg room))

theorem step_room {e : Event α} (fits : s.activeOrders.length ≤ capacity)
    (room : s.RoomFor cfg capacity e) :
    ∃ capacity', step spare cfg (some ⟨s, capacity⟩) e = some ⟨Strategy.step cfg s e, capacity'⟩ ∧
      (Strategy.step cfg s e).activeOrders.length ≤ capacity' := by
  cases e with
  | start replies =>
      refine ⟨_, rfl, ?_⟩
      have longer := GridStrategy.length_start cfg { s with replies := replies }
      have kept := Growing.fits_pushBacks spare
        ((Strategy.step cfg s (.start replies)).activeOrders.length - s.activeOrders.length) fits
      change s.activeOrders.length ≤ (Strategy.step cfg s (.start replies)).activeOrders.length
        at longer
      exact (Nat.add_sub_of_le longer).symm.le.trans kept
  | checkFilledOrders replies =>
      refine ⟨capacity, ?_, ?_⟩
      · have passed : checkFilledOrders cfg ⟨{ s with replies := replies }, capacity⟩ =
            some (GridStrategy.checkFilledOrders cfg { s with replies := replies }) :=
          (checkFilledOrders_eq cfg (s := { s with replies := replies }) fits).trans (if_pos room)
        simp only [step, passed, Option.map_some]
        rfl
      · have found : ∀ v ∈ Outcome.iterations (GridStrategy.visit cfg)
            { s with replies := replies, toRemove := [] } s.activeOrders,
            v.1.Hedges cfg v.2 → v.1.activeOrders.length < capacity := room
        have kept := Growing.fits_forEach (GridStrategy.visit_appends cfg)
          (s := { s with replies := replies, toRemove := [] }) fits found
        change (GridStrategy.checkFilledOrders cfg
          { s with replies := replies }).state.activeOrders.length ≤ capacity
        unfold GridStrategy.checkFilledOrders
        simp only at kept ⊢
        cases ran : Outcome.forEach (GridStrategy.visit cfg)
            { s with replies := replies, toRemove := [] } s.activeOrders with
        | done s' =>
            rw [ran] at kept
            exact (GridStrategy.length_removeAll s' s'.toRemove).trans kept
        | thrown s' =>
            rw [ran] at kept
            exact kept
  | updateOrder orderId status filled =>
      refine ⟨capacity, rfl, ?_⟩
      change (s.report orderId status filled).activeOrders.length ≤ capacity
      unfold GridStrategy.report
      cases s.orderManager.orders orderId <;> exact fits
  | syncOrder orderId side price quantity status filled =>
      refine ⟨capacity, rfl, ?_⟩
      change (s.report orderId status filled).activeOrders.length ≤ capacity
      unfold GridStrategy.report
      cases s.orderManager.orders orderId <;> exact fits
  | setBalance currency amount => exact ⟨capacity, rfl, fits⟩

theorem step_moved {e : Event α} (fits : s.activeOrders.length ≤ capacity)
    (moved : ¬ s.RoomFor cfg capacity e) : step spare cfg (some ⟨s, capacity⟩) e = none := by
  cases e with
  | checkFilledOrders replies =>
      have passed : checkFilledOrders cfg ⟨{ s with replies := replies }, capacity⟩ = none :=
        (checkFilledOrders_eq cfg (s := { s with replies := replies }) fits).trans (if_neg moved)
      simp only [step, passed, Option.map_none]
  | start replies => exact absurd trivial moved
  | updateOrder orderId status filled => exact absurd trivial moved
  | syncOrder orderId side price quantity status filled => exact absurd trivial moved
  | setBalance currency amount => exact absurd trivial moved

section Runs
variable {events : List (Event α)} {P : GridStrategy α → Prop}
  {ok guard : GridStrategy α → Event α → Prop}

def Roomy (spare : ℕ → ℕ) (cfg : GridConfig α) (r : Option (Stored α)) (events : List (Event α)) :
    Prop :=
  Along (step spare cfg) (Meets cfg fun _ _ => True) r events

theorem meets_some {e : Event α} :
    Meets cfg guard (some ⟨s, capacity⟩) e ↔ s.RoomFor cfg capacity e ∧ guard s e := by
  simp [Meets]

theorem run_none (events : List (Event α)) : run (step spare cfg) none events = none := by
  induction events with
  | nil => rfl
  | cons e events ih => exact ih

theorem not_defined_none (events : List (Event α)) :
    ¬ Always (step spare cfg) (Defined P) none events := by
  intro always
  obtain ⟨s, member, -⟩ := always.head
  contradiction

theorem always_iff (fits : s.activeOrders.length ≤ capacity) :
    Always (step spare cfg) (Defined P) (some ⟨s, capacity⟩) events ↔
      Roomy spare cfg (some ⟨s, capacity⟩) events ∧ Always (Strategy.step cfg) P s events := by
  induction events generalizing s capacity with
  | nil =>
      simp only [Always, Roomy, Along, true_and]
      exact defined_some
  | cons e events ih =>
      simp only [Always, Roomy, Along, defined_some, meets_some, and_true]
      by_cases room : s.RoomFor cfg capacity e
      · obtain ⟨capacity', stepped, fits'⟩ := step_room spare cfg fits room
        rw [stepped, ih fits', Roomy]
        tauto
      · rw [step_moved spare cfg fits room]
        have broken := not_defined_none spare cfg (P := P) events
        tauto

theorem along_meets_iff (fits : s.activeOrders.length ≤ capacity) :
    Along (step spare cfg) (Meets cfg guard) (some ⟨s, capacity⟩) events ↔
      Roomy spare cfg (some ⟨s, capacity⟩) events ∧ Along (Strategy.step cfg) guard s events := by
  induction events generalizing s capacity with
  | nil => simp [Roomy, Along]
  | cons e events ih =>
      simp only [Roomy, Along, meets_some, and_true]
      by_cases room : s.RoomFor cfg capacity e
      · obtain ⟨capacity', stepped, fits'⟩ := step_room spare cfg fits room
        rw [stepped, ih fits', Roomy]
        tauto
      · tauto

theorem along_behaves_iff {P : GridStrategy α → Event α → Prop}
    (fits : s.activeOrders.length ≤ capacity) :
    Along (step spare cfg) (Behaves (step spare cfg) P) (some ⟨s, capacity⟩) events ↔
      Along (step spare cfg) (Meets cfg P) (some ⟨s, capacity⟩) events := by
  induction events generalizing s capacity with
  | nil => exact Iff.rfl
  | cons e events ih =>
      simp only [Along, meets_some, Behaves, Option.mem_def, Option.some.injEq, exists_eq_left']
      by_cases room : s.RoomFor cfg capacity e
      · obtain ⟨capacity', stepped, fits'⟩ := step_room spare cfg fits room
        rw [stepped, ih fits']
        simp [room]
      · rw [step_moved spare cfg fits room]
        simp [room]

theorem along_permits (fits : s.activeOrders.length ≤ capacity)
    (permitted : Along (step spare cfg) (Permits ok) (some ⟨s, capacity⟩) events)
    (roomy : Roomy spare cfg (some ⟨s, capacity⟩) events) :
    Along (Strategy.step cfg) ok s events := by
  induction events generalizing s capacity with
  | nil => trivial
  | cons e events ih =>
      obtain ⟨⟨s₁, same, room, -⟩, laterRoom⟩ := roomy
      obtain rfl := Option.some.inj same
      obtain ⟨here, later⟩ := permitted
      obtain ⟨capacity', stepped, fits'⟩ := step_room spare cfg fits room
      rw [stepped] at later laterRoom
      exact ⟨here _ rfl, ih fits' later laterRoom⟩

theorem run_roomy (fits : s.activeOrders.length ≤ capacity)
    (roomy : Roomy spare cfg (some ⟨s, capacity⟩) events) :
    ∃ capacity', run (step spare cfg) (some ⟨s, capacity⟩) events =
        some ⟨run (Strategy.step cfg) s events, capacity'⟩ ∧
      (run (Strategy.step cfg) s events).activeOrders.length ≤ capacity' := by
  induction events generalizing s capacity with
  | nil => exact ⟨capacity, rfl, fits⟩
  | cons e events ih =>
      obtain ⟨here, later⟩ := roomy
      obtain ⟨capacity', stepped, fits'⟩ :=
        step_room spare cfg fits ((meets_some cfg).mp here).1
      rw [stepped] at later
      simp only [run_cons, stepped]
      exact ih fits' later

theorem defined_run_iff (fits : s.activeOrders.length ≤ capacity) :
    Defined P (run (step spare cfg) (some ⟨s, capacity⟩) events) ↔
      Roomy spare cfg (some ⟨s, capacity⟩) events ∧ P (run (Strategy.step cfg) s events) := by
  induction events generalizing s capacity with
  | nil => simp [Defined, Roomy, Along]
  | cons e events ih =>
      simp only [run_cons, Roomy, Along, meets_some, and_true]
      by_cases room : s.RoomFor cfg capacity e
      · obtain ⟨capacity', stepped, fits'⟩ := step_room spare cfg fits room
        rw [stepped, ih fits', Roomy]
        tauto
      · rw [step_moved spare cfg fits room, run_none]
        simp [Defined, room]

/-- What holds of the runs over the orders tracked before each pass holds of the program, where in
addition every hedge finds room. -/
theorem always_defined_iff (fits : s.activeOrders.length ≤ capacity)
    (permitted : Along (step spare cfg) (Permits ok) (some ⟨s, capacity⟩) events)
    (plain : Along (Strategy.step cfg) ok s events →
      (Always (Strategy.step cfg) P s events ↔ Along (Strategy.step cfg) guard s events)) :
    Always (step spare cfg) (Defined P) (some ⟨s, capacity⟩) events ↔
      Along (step spare cfg) (Meets cfg guard) (some ⟨s, capacity⟩) events := by
  rw [always_iff spare cfg fits, along_meets_iff spare cfg fits]
  exact and_congr_right fun roomy => plain (along_permits spare cfg fits permitted roomy)

theorem always_defined_of_meets (fits : s.activeOrders.length ≤ capacity)
    (permitted : Along (step spare cfg) (Permits ok) (some ⟨s, capacity⟩) events)
    (plain : Along (Strategy.step cfg) ok s events → Along (Strategy.step cfg) guard s events →
      Always (Strategy.step cfg) P s events)
    (meets : Along (step spare cfg) (Meets cfg guard) (some ⟨s, capacity⟩) events) :
    Always (step spare cfg) (Defined P) (some ⟨s, capacity⟩) events := by
  obtain ⟨roomy, guarded⟩ := (along_meets_iff spare cfg fits).mp meets
  have allowed := along_permits spare cfg fits permitted roomy
  exact (always_iff spare cfg fits).mpr ⟨roomy, plain allowed guarded⟩

end Runs

end Stored

end SpotGridBot.Strategy
