import SpotGridBot.Strategy.Storage
import SpotGridBot.Strategy.Visits

namespace SpotGridBot.Strategy
open Utils SpotGridBot.Core Runs

def Record.buys {α : Type} : Record α → Bool
  | .call _ side _ _ _ => side = .buy
  | _ => false

namespace GridStrategy

section Records
variable {α : Type} [Zero α] [One α] [Add α] [Sub α] [Mul α] [LE α] [LT α] [DecidableLE α]
  [DecidableLT α] [Doubles α] (cfg : GridConfig α) (s : GridStrategy α) (orderId : OrderId)

def base : α := s.orderManager.balance cfg.instrument.baseCCY

def visitRecords : List (Record α) := (s.visit cfg orderId).state.history.drop s.history.length

structure VisitBounded : Prop where
  entry : cfg.maxPosition < s.base cfg →
    ∀ record ∈ s.visitRecords cfg orderId, record.buys = false
  exit : (s.details orderId).side = .buy →
    ∀ record ∈ s.visitRecords cfg orderId, record.declines = false

/-- A hedge that sells is due with the balance `within` the rounded bound, and one that buys is due
with the balance within the bound, or it does not pass the balance check. -/
def HedgeWithin (within passes : Prop) : Prop :=
  if (s.details orderId).side = .buy then within else ¬ cfg.maxPosition < s.base cfg ∨ ¬ passes

def VisitWithin : Prop :=
  ∀ order ∈ s.orderManager.orders orderId,
    let delta := order.filled - s.knownFilled orderId
    (order.status = .filled →
      s.HedgeWithin cfg orderId (¬ s.base cfg > Doubles.round cfg.maxPosition)
        (s.PassesFilled cfg orderId)) ∧
    (order.status = .partiallyFilled → Doubles.isTrue (Doubles.round delta) = true →
      s.HedgeWithin cfg orderId (s.base cfg ≤ Doubles.round cfg.maxPosition)
        (s.PassesPartial cfg orderId delta))

variable {cfg s orderId}

theorem visitRecords_of_history {entries : List (Record α)}
    (appended : (s.visit cfg orderId).state.history = s.history ++ entries) :
    s.visitRecords cfg orderId = entries := by
  simp [visitRecords, appended]

theorem visitBounded_done {s' : GridStrategy α} (visited : s.visit cfg orderId = .done s')
    (same : s'.history = s.history) : s.VisitBounded cfg orderId := by
  have records : s.visitRecords cfg orderId = [] :=
    visitRecords_of_history (by rw [visited, List.append_nil]; exact same)
  constructor <;> simp [records]

theorem visitBounded_iff_hedgeWithin {s₁ : GridStrategy α} {cause : Cause} {price qty : α}
    {within passes : Prop} (bound : (s.details orderId).side = .buy → (passes ↔ within))
    (same : s₁.history = s.history)
    (hedged : (passes ∧ (s.visit cfg orderId).state.history =
        (s₁.placeAndTrack cause (hedgeSide (s.details orderId)) price qty).state.history) ∨
      (¬ passes ∧ (s.visit cfg orderId).state.history =
        (s₁.record (.declined cause qty)).history)) :
    s.VisitBounded cfg orderId ↔ s.HedgeWithin cfg orderId within passes := by
  rcases hedged with ⟨passed, placed⟩ | ⟨short, declined⟩
  · obtain ⟨result, called⟩ :=
      history_placeAndTrack s₁ cause (hedgeSide (s.details orderId)) price qty
    have records := visitRecords_of_history (placed.trans (same ▸ called))
    by_cases bought : (s.details orderId).side = .buy
    · have bounded : s.VisitBounded cfg orderId := by
        constructor <;> simp [records, Record.buys, Record.declines, hedgeSide, bought]
      simp [HedgeWithin, bought, bounded, (bound bought).mp passed]
    · simp only [HedgeWithin, bought, if_false, passed, not_true_eq_false, or_false]
      constructor
      · intro bounded
        have entry := bounded.entry
        simpa [records, Record.buys, hedgeSide, bought] using entry
      · intro within
        exact ⟨fun above => absurd above within, fun bought' => absurd bought' bought⟩
  · have records := visitRecords_of_history (declined.trans (by rw [record, same]))
    by_cases bought : (s.details orderId).side = .buy
    · simp only [HedgeWithin, bought, if_true]
      constructor
      · intro bounded
        have exit := bounded.exit bought
        simp [records, Record.declines] at exit
      · intro inside
        exact absurd ((bound bought).mpr inside) short
    · have bounded : s.VisitBounded cfg orderId :=
        ⟨by simp [records, Record.buys], fun bought' => absurd bought' bought⟩
      simp [HedgeWithin, bought, bounded, short]

theorem visitBounded_iff : s.VisitBounded cfg orderId ↔ s.VisitWithin cfg orderId := by
  cases cached : s.orderManager.orders orderId with
  | none =>
      have bounded := visitBounded_done (visit_unknown cfg cached) rfl
      simp [VisitWithin, cached, bounded]
  | some order =>
      cases status : order.status with
      | new =>
          have bounded := visitBounded_done (visit_new cfg cached status) rfl
          simp [VisitWithin, cached, status, bounded]
      | canceled =>
          have bounded := visitBounded_done (visit_dead cfg cached (.inl status)) rfl
          simp [VisitWithin, cached, status, bounded]
      | rejected =>
          have bounded := visitBounded_done (visit_dead cfg cached (.inr status)) rfl
          simp [VisitWithin, cached, status, bounded]
      | filled =>
          have history : (s.visit cfg orderId).state.history =
              (s.hedgeFilled cfg orderId).state.history := by
            rw [visit_hedgeFilled cfg cached status]
            cases s.hedgeFilled cfg orderId with
            | _ => rfl
          have bound : (s.details orderId).side = .buy → (s.PassesFilled cfg orderId ↔
              ¬ s.base cfg > Doubles.round cfg.maxPosition) := by
            intro bought
            simp only [PassesFilled, bought, if_true]
            rfl
          have hedged := visitBounded_iff_hedgeWithin bound
            (rfl : (s.touchDetails orderId).history = s.history)
            ((s.hedgeFilled_cases cfg orderId).imp
              (fun placed => ⟨placed.1, by rw [history, placed.2]⟩)
              fun declined => ⟨declined.1, by rw [history, declined.2]; rfl⟩)
          simp [VisitWithin, cached, status, hedged]
      | partiallyFilled =>
          cases newFill : Doubles.isTrue
            (Doubles.round (order.filled - s.knownFilled orderId)) with
          | false =>
              have bounded := visitBounded_done (visit_seen cfg cached status newFill) rfl
              simp [VisitWithin, cached, status, newFill, bounded]
          | true =>
              have visited := visit_hedgePartial cfg cached status newFill
              have bound : (s.details orderId).side = .buy →
                  (s.PassesPartial cfg orderId (order.filled - s.knownFilled orderId) ↔
                    s.base cfg ≤ Doubles.round cfg.maxPosition) := by
                intro bought
                simp only [PassesPartial, bought, if_true]
                rfl
              have hedged := visitBounded_iff_hedgeWithin bound
                (rfl : ((s.setKnown orderId order.filled).touchDetails orderId).history =
                  s.history)
                (((s.setKnown orderId order.filled).hedgePartial_cases cfg orderId
                  (order.filled - s.knownFilled orderId)).imp
                  (fun placed => ⟨placed.1, by rw [visited, placed.2]; rfl⟩)
                  fun declined => ⟨declined.1, by rw [visited, declined.2]; rfl⟩)
              simp [VisitWithin, cached, status, newFill, hedged]

end Records

section Start
variable {α : Type} [Zero α] {s s' : GridStrategy α}

def Bought (s s' : GridStrategy α) : Prop :=
  ∃ entries, s'.history = s.history ++ entries ∧ ∃ record ∈ entries, record.buys = true

theorem Bought.place (bought : Bought s s') (cause : Cause) (side : Side) (price qty : α) :
    (s'.placeAndTrack cause side price qty).Ends (Bought s) (Bought s) := by
  obtain ⟨entries, appended, record, member, buys⟩ := bought
  obtain ⟨result, called⟩ := history_placeAndTrack s' cause side price qty
  apply Outcome.ends_of_state
  refine ⟨entries ++ [.call cause side price qty result], ?_, record, ?_, buys⟩
  · rw [called, appended, List.append_assoc]
  · exact List.mem_append_left _ member

theorem bought_place (same : s'.history = s.history) (cause : Cause) (price qty : α) :
    (s'.placeAndTrack cause .buy price qty).Ends (Bought s) (Bought s) := by
  obtain ⟨result, called⟩ := history_placeAndTrack s' cause .buy price qty
  apply Outcome.ends_of_state
  exact ⟨[.call cause .buy price qty result], by rw [called, same], _, List.mem_singleton_self _,
    rfl⟩

def Unbought (s s' : GridStrategy α) : Prop :=
  ∃ entries, s'.history = s.history ++ entries ∧ ∀ record ∈ entries, record.buys = false

variable [One α] [NatCast α] [Add α] [Sub α] [Mul α] {cfg : GridConfig α}

theorem bought_start (levels : 0 < cfg.levelsBelow) : Bought s (s.start cfg).state := by
  apply Outcome.Ends.state
  unfold start
  refine (Outcome.forEach_ends
      (fun rest s' => Bought s s' ∨ rest ≠ [] ∧ s'.history = s.history) ?_ ?_).bind
    fun s' bought => Outcome.forEach_ends (fun _ => Bought s) ?_ ?_
  · rintro i rest s' (bought | ⟨-, same⟩)
    · exact (bought.place .grid .buy _ _).mono (fun _ => .inl) fun _ => id
    · exact (bought_place same .grid _ _).mono (fun _ => .inl) fun _ => id
  · have some : cfg.levelsBelow.toNat ≠ 0 := by omega
    exact .inr ⟨by simpa using some, rfl⟩
  · exact fun i rest s' bought => bought.place .grid .sell _ _
  · exact bought.resolve_right fun none => none.1 rfl

theorem unbought_start (levels : cfg.levelsBelow ≤ 0) : Unbought s (s.start cfg).state := by
  have none : cfg.levelsBelow.toNat = 0 := by omega
  apply start_rule cfg
  · intro s' i small
    omega
  · rintro s' i _ ⟨entries, appended, sold⟩
    obtain ⟨result, called⟩ := history_placeAndTrack s' .grid .sell
      (cfg.basePrice * (1 + cfg.stepPercent * (i + 1))) cfg.percentOrderQty
    apply Outcome.ends_of_state
    refine ⟨entries ++ [_], by rw [called, appended, List.append_assoc], ?_⟩
    intro record member
    rcases List.mem_append.mp member with old | new
    · exact sold record old
    · rw [List.mem_singleton.mp new]
      rfl
  · exact ⟨[], by simp, by simp⟩

def startRecords (cfg : GridConfig α) (s : GridStrategy α) : List (Record α) :=
  (s.start cfg).state.history.drop s.history.length

theorem startRecords_buy (s : GridStrategy α) :
    (∀ record ∈ startRecords cfg s, record.buys = false) ↔ cfg.levelsBelow ≤ 0 := by
  by_cases levels : cfg.levelsBelow ≤ 0
  · obtain ⟨entries, appended, sold⟩ := unbought_start (s := s) levels
    simpa [startRecords, appended, levels] using sold
  · obtain ⟨entries, appended, record, member, buys⟩ := bought_start (s := s) (not_le.mp levels)
    simp only [levels, iff_false, not_forall]
    exact ⟨record, by simp [startRecords, appended, member], by simp [buys]⟩

end Start

end GridStrategy

open GridStrategy

section Runs
variable {α : Type} [Zero α] [One α] [NatCast α] [Add α] [Sub α] [Mul α] [LE α] [LT α]
  [DecidableLE α] [DecidableLT α] [Doubles α] (cfg : GridConfig α)

def BoundsPosition (s : GridStrategy α) : Event α → Prop
  | .start replies => cfg.maxPosition < s.base cfg →
      ∀ record ∈ startRecords cfg { s with replies := replies }, record.buys = false
  | .checkFilledOrders replies =>
      ∀ v ∈ ({ s with replies := replies } : GridStrategy α).visits cfg, v.1.VisitBounded cfg v.2
  | _ => True

def PositionWithin (s : GridStrategy α) : Event α → Prop
  | .start _ => ¬ cfg.maxPosition < s.base cfg ∨ cfg.levelsBelow ≤ 0
  | .checkFilledOrders replies =>
      ∀ v ∈ ({ s with replies := replies } : GridStrategy α).visits cfg, v.1.VisitWithin cfg v.2
  | _ => True

theorem boundsPosition_iff_positionWithin (m : OrderManager α) (events : List (Event α)) :
    Along (step cfg) (BoundsPosition cfg) { orderManager := m } events ↔
      Along (step cfg) (PositionWithin cfg) { orderManager := m } events := by
  apply along_congr
  intro s e
  cases e with
  | start replies =>
      simp only [BoundsPosition, PositionWithin, startRecords_buy]
      exact imp_iff_not_or
  | checkFilledOrders replies =>
      simp only [BoundsPosition, PositionWithin, visitBounded_iff]
  | updateOrder orderId status filled => exact Iff.rfl
  | syncOrder orderId side price quantity status filled => exact Iff.rfl
  | setBalance currency amount => exact Iff.rfl

/-- The bound holds in the right direction along a run exactly when every hedge finds room, and every
placement that buys and every hedge that sells comes when the balance is within the bound. -/
theorem stored_boundsPosition_iff (spare : ℕ → ℕ) (m : OrderManager α)
    (capacity : ℕ) (events : List (Event α)) :
    Along (Stored.step spare cfg)
        (Stored.Behaves (Stored.step spare cfg) (BoundsPosition cfg))
        (some ⟨{ orderManager := m }, capacity⟩) events ↔
      Along (Stored.step spare cfg) (Stored.Meets cfg (PositionWithin cfg))
        (some ⟨{ orderManager := m }, capacity⟩) events := by
  have fits : ({ orderManager := m } : GridStrategy α).activeOrders.length ≤ capacity :=
    Nat.zero_le capacity
  rw [Stored.along_behaves_iff spare cfg fits, Stored.along_meets_iff spare cfg fits,
    Stored.along_meets_iff spare cfg fits, boundsPosition_iff_positionWithin]

end Runs

def aboveBound : List Event := [
  .setBalance Currency.eur 2000,
  .start [.accepted "1"],
  .updateOrder "1" .filled 10,
  .checkFilledOrders []]

theorem aboveBound_buys_and_keeps :
    (run (Stored.step Growing.doubling (ladder 10)) (some ⟨{ orderManager := emptyManager }, 0⟩)
      aboveBound).map (fun r => r.strategy.history) = some
        [.call .grid .buy 99 10 (some "1"), .report "1" .filled 10, .declined (.filled "1") 10,
          .left "1" (some ⟨"1", .buy, 99, 10, 10, .filled⟩)] ∧
    ¬ Along (Stored.step Growing.doubling (ladder 10))
      (Stored.Behaves (Stored.step Growing.doubling (ladder 10)) (BoundsPosition (ladder 10)))
      (some ⟨{ orderManager := emptyManager }, 0⟩) aboveBound := by
  refine ⟨by decide +kernel, fun bounds => ?_⟩
  obtain ⟨-, ⟨-, r, same, atStart⟩, -⟩ := bounds
  obtain rfl := Option.some.inj same
  have above : (ladder 10).maxPosition <
      (step (ladder 10) { orderManager := emptyManager } (.setBalance Currency.eur 2000)).base
        (ladder 10) := by decide +kernel
  have none := (startRecords_buy _).mp (atStart above)
  exact absurd none (by decide +kernel)

end SpotGridBot.Strategy
