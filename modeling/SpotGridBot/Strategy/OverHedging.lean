import SpotGridBot.Strategy.Ledger

namespace SpotGridBot.Strategy
open Utils SpotGridBot.Core Runs

namespace Account
variable {cfg : GridConfig} {balance : Currency → ℚ} {a : Account}

def filledQuantity (a : Account) : ℚ :=
  if reportedFilled a.ledger then a.order.quantity else a.order.filled

structure NoOverHedging (a : Account) : Prop where
  bounded : hedgedQty a.ledger ≤ a.filledQuantity
  whole : ∀ order, .left order ∈ a.ledger → order.status = .filled →
    (∀ qty, .declined qty ∉ a.ledger) → hedgedQty a.ledger = a.filledQuantity
  opposite : ∀ side qty, .hedged side qty ∈ a.ledger → side = a.order.side.reverse

def HedgesOnce (cfg : GridConfig) (a : Account) : AccountEvent → Prop
  | .pass balance => a.tracked = true → a.order.status = .filled →
      hedgedQty a.ledger = 0 ∨ ¬ Affordable cfg balance a.details a.details.qty
  | _ => True

structure Covered (a : Account) : Prop where
  sound : a.Sound
  nonneg : 0 ≤ hedgedQty a.ledger
  known : a.tracked = true → hedgedQty a.ledger ≤ a.known
  within : a.NoOverHedging

theorem Covered.born (born : a.Born) : a.Covered := by
  have sound := Sound.born born
  obtain ⟨orderId, side, price, qty, valid, rfl⟩ := born
  exact ⟨sound, by simp, by simp, ⟨by simp [filledQuantity], by simp, by simp⟩⟩

theorem filled_le_filledQuantity (sound : a.Sound) : a.order.filled ≤ a.filledQuantity := by
  unfold filledQuantity
  split
  next reported => exact sound.within reported
  next => exact le_rfl

theorem filledQuantity_reported (reported : reportedFilled a.ledger = true) :
    a.filledQuantity = a.order.quantity := if_pos reported

theorem filledQuantity_append {b : Account} {entries : List Entry} (order : b.order = a.order)
    (ledger : b.ledger = a.ledger ++ entries) (silent : reportedFilled entries = false) :
    b.filledQuantity = a.filledQuantity := by
  simp [filledQuantity, order, ledger, silent]

theorem filledQuantity_report {status : OrderStatus} {filled : ℚ}
    (grows : a.order.filled ≤ filled) (within : filled ≤ a.order.quantity) :
    a.filledQuantity ≤ (a.report status filled).filledQuantity := by
  have later : filled ≤ (a.report status filled).filledQuantity := by
    unfold filledQuantity
    split
    · exact within
    · exact le_rfl
  by_cases reported : reportedFilled a.ledger = true
  · have still : reportedFilled (a.report status filled).ledger = true := by
      simp [Account.report, write, reported]
    rw [filledQuantity_reported reported, filledQuantity_reported still]
    rfl
  · calc a.filledQuantity = a.order.filled := if_neg reported
      _ ≤ filled := grows
      _ ≤ _ := later

theorem Covered.report (covered : a.Covered) {status : OrderStatus} {filled : ℚ}
    (grows : a.order.filled ≤ filled) (within : filled ≤ a.order.quantity) :
    (a.report status filled).Covered := by
  have same : hedgedQty (a.report status filled).ledger = hedgedQty a.ledger := by
    simp [Account.report, write]
  have sound : (a.report status filled).Sound := covered.sound.report grows within
  refine ⟨sound, same ▸ covered.nonneg, fun tracked => same ▸ covered.known tracked, ?_⟩
  constructor
  · rw [same]
    exact covered.within.bounded.trans (filledQuantity_report grows within)
  · intro order left status noDecline
    have before : Entry.left order ∈ a.ledger := by simpa [Account.report, write] using left
    have reported := covered.sound.leftFilled order before status
    have still := sound.leftFilled order left status
    have whole := covered.within.whole order before status fun qty declined =>
      noDecline qty (by simp [Account.report, write, declined])
    rw [same, whole, filledQuantity_reported reported, filledQuantity_reported still]
    rfl
  · exact sound.opposite

section Outcomes
variable {b : Account} (covered : a.Covered) (tracked : a.tracked = true) (sound : b.Sound)
  (order : b.order = a.order)
include covered tracked sound order

theorem Covered.dropDead (dead : a.order.status = .canceled ∨ a.order.status = .rejected)
    (dropped : b.tracked = false) (ledger : b.ledger = a.ledger ++ [.left a.order]) :
    b.Covered := by
  have same : hedgedQty b.ledger = hedgedQty a.ledger := by simp [ledger]
  have quantity : b.filledQuantity = a.filledQuantity :=
    filledQuantity_append order ledger (by simp)
  refine ⟨sound, same ▸ covered.nonneg, by simp [dropped], ?_⟩
  constructor
  · rw [same, quantity]
    exact covered.within.bounded
  · intro left member filled
    rw [ledger] at member
    rcases List.mem_append.mp member with old | new
    · exact absurd old (covered.sound.stays tracked left)
    · obtain rfl : left = a.order := by simpa using new
      rcases dead with dead | dead <;> simp [dead] at filled
  · exact sound.opposite

theorem Covered.dropFilled (status : a.order.status = .filled)
    (once : hedgedQty a.ledger = 0 ∨ ¬ Affordable cfg balance a.details a.details.qty)
    (dropped : b.tracked = false)
    (ledger : b.ledger = a.ledger ++ [a.hedgeEntry cfg balance a.details.qty, .left a.order]) :
    b.Covered := by
  have reported := covered.sound.reported status
  have quantity : b.filledQuantity = a.filledQuantity :=
    filledQuantity_append order ledger (by simp)
  by_cases affordable : Affordable cfg balance a.details a.details.qty
  · have none : hedgedQty a.ledger = 0 := once.resolve_right (not_not.mpr affordable)
    have whole : a.details.qty = a.filledQuantity := by
      rw [filledQuantity_reported reported, covered.sound.details tracked]
    have all : hedgedQty b.ledger = b.filledQuantity := by
      rw [ledger, hedgeEntry_placed affordable, quantity, ← whole]
      simp [none]
    have positive : 0 ≤ b.filledQuantity := by
      rw [quantity]
      exact covered.nonneg.trans covered.within.bounded
    exact ⟨sound, all ▸ positive, by simp [dropped], all.le, fun _ _ _ _ => all, sound.opposite⟩
  · rw [hedgeEntry_declined affordable] at ledger
    have same : hedgedQty b.ledger = hedgedQty a.ledger := by simp [ledger]
    refine ⟨sound, same ▸ covered.nonneg, by simp [dropped], ?_⟩
    constructor
    · rw [same, quantity]
      exact covered.within.bounded
    · intro left _ _ noDecline
      exact absurd (by simp [ledger]) (noDecline a.details.qty)
    · exact sound.opposite

theorem Covered.hedgeFill (still : b.tracked = true) (known : b.known = a.order.filled)
    (ledger : b.ledger = a.ledger ++ [a.hedgeEntry cfg balance (a.order.filled - a.known)]) :
    b.Covered := by
  have hedged : hedgedQty a.ledger ≤ a.known := covered.known tracked
  have grown : a.known ≤ a.order.filled := covered.sound.known tracked
  have sum : hedgedQty b.ledger = hedgedQty a.ledger +
      (a.hedgeEntry cfg balance (a.order.filled - a.known)).hedgedQty := by simp [ledger]
  have bounds : hedgedQty a.ledger ≤ hedgedQty b.ledger ∧
      hedgedQty b.ledger ≤ a.order.filled := by
    rcases hedgedQty_hedgeEntry cfg balance a (a.order.filled - a.known) with none | whole
    · rw [sum, none]
      constructor <;> linarith
    · rw [sum, whole]
      constructor <;> linarith
  have quantity : b.filledQuantity = a.filledQuantity :=
    filledQuantity_append order ledger (by simp)
  refine ⟨sound, covered.nonneg.trans bounds.1, fun _ => known ▸ bounds.2, ?_⟩
  constructor
  · calc hedgedQty b.ledger ≤ a.order.filled := bounds.2
      _ ≤ a.filledQuantity := filled_le_filledQuantity covered.sound
      _ = b.filledQuantity := quantity.symm
  · intro left member _ _
    exact absurd member (sound.stays still left)
  · exact sound.opposite

end Outcomes

theorem Covered.pass (covered : a.Covered) (tracked : a.tracked = true)
    (once : a.HedgesOnce cfg (.pass balance)) : (a.pass cfg balance).Covered := by
  have passSound : (a.pass cfg balance).Sound := covered.sound.pass tracked
  have outcome := a.passed cfg balance
  generalize a.pass cfg balance = b at outcome passSound ⊢
  cases outcome with
  | unchanged status noFill => exact covered
  | dead status => exact covered.dropDead tracked passSound rfl status rfl rfl
  | filled status =>
      exact covered.dropFilled tracked passSound rfl status (once tracked status) rfl rfl
  | newFill fill => exact covered.hedgeFill tracked passSound rfl tracked rfl rfl

theorem Covered.breaks (covered : a.Covered) (tracked : a.tracked = true)
    (twice : ¬ a.HedgesOnce cfg (.pass balance)) : ¬ (a.pass cfg balance).NoOverHedging := by
  simp only [HedgesOnce, not_forall, not_or, not_not] at twice
  obtain ⟨-, status, some, affordable⟩ := twice
  intro within
  have reported := covered.sound.reported status
  have quantity : a.details.qty = a.order.quantity := by rw [covered.sound.details tracked]
  have nonneg := covered.nonneg
  have outcome := a.passed cfg balance
  generalize a.pass cfg balance = b at outcome within
  cases outcome with
  | filled =>
      have bounded := within.bounded
      rw [filledQuantity_reported (by simp [reported]), hedgeEntry_placed affordable] at bounded
      simp [quantity] at bounded
      exact some (le_antisymm bounded nonneg)
  | dead dead => rcases dead with dead | dead <;> simp [status] at dead
  | newFill fill => simp [NewFill, status] at fill
  | unchanged other => rcases other with other | other <;> simp [status] at other

end Account

/-- In a run without over-hedging, and only there, a pass that hedges the whole of a filled order
finds no part of it hedged. -/
theorem noOverHedging_iff_hedgesOnce (cfg : GridConfig) (m : OrderManager) (events : List Event)
    (orderly : Along (step cfg) (Orderly cfg) { orderManager := m } events) :
    Always (step cfg) (Accounted Account.NoOverHedging) { orderManager := m } events ↔
      Along (step cfg) (Guarded (Account.HedgesOnce cfg)) { orderManager := m } events := by
  apply always_accounted_iff cfg (fun a => Account.Covered.born) ?_
    (fun a => Account.Covered.within) ?_ orderly
  · intro a k allowed covered once
    cases k with
    | idle => exact covered
    | report status filled => exact covered.report allowed.1 allowed.2
    | pass balance =>
        simp only [Account.move]
        split
        next tracked => exact covered.pass tracked once
        next => exact covered
  · intro a k allowed covered twice
    cases k with
    | idle => exact absurd trivial twice
    | report status filled => exact absurd trivial twice
    | pass balance =>
        have tracked : a.tracked = true := by
          by_contra untracked
          exact twice fun tracked => absurd tracked untracked
        simp only [Account.move, tracked, if_true]
        exact covered.breaks tracked twice

def partialThenFilled : List Event := [
  .start [.accepted "1"],
  .updateOrder "1" .partiallyFilled 4,
  .checkFilledOrders [.accepted "2"],
  .updateOrder "1" .filled 10,
  .checkFilledOrders [.accepted "3", .accepted "4"]]

theorem partialThenFilled_overHedges :
    Along (step (ladder 10)) (Orderly (ladder 10)) { orderManager := emptyManager }
      partialThenFilled ∧
    ¬ Always (step (ladder 10)) (Accounted Account.NoOverHedging)
      { orderManager := emptyManager } partialThenFilled := by
  refine ⟨by decide +kernel, fun always => ?_⟩
  obtain ⟨a, here, within⟩ := always.last "1" (by decide +kernel)
  have books : ((run (step (ladder 10)) { orderManager := emptyManager }
      partialThenFilled).account "1").map (fun a => (hedgedQty a.ledger, a.filledQuantity)) =
        some (14, 10) := by decide +kernel
  rw [here] at books
  have amounts : hedgedQty a.ledger = 14 ∧ a.filledQuantity = 10 := by simpa using books
  have bounded := within.bounded
  rw [amounts.1, amounts.2] at bounded
  norm_num at bounded

theorem noOverHedging_iff_hedgesOnce_partialThenFilled :
    Always (step (ladder 10)) (Accounted Account.NoOverHedging) { orderManager := emptyManager }
        partialThenFilled ↔
      Along (step (ladder 10)) (Guarded (Account.HedgesOnce (ladder 10)))
        { orderManager := emptyManager } partialThenFilled :=
  noOverHedging_iff_hedgesOnce (ladder 10) emptyManager partialThenFilled (by decide +kernel)

end SpotGridBot.Strategy
