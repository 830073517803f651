import SpotGridBot.Strategy.Ledger
import SpotGridBot.Strategy.Storage

namespace SpotGridBot.Strategy
open Utils SpotGridBot.Core Runs

namespace Account
variable {cfg : GridConfig} {balance : Currency → ℚ} {a : Account}

structure NothingForgotten (a : Account) : Prop where
  known : a.tracked = true → a.known = hedgedQty a.ledger
  dropped : ∀ order, .left order ∈ a.ledger →
    order.status = .canceled ∨ order.status = .rejected → hedgedQty a.ledger = order.filled
  -- A declined hedge is placed by now, or its order is still looked at by the next pass.
  declined : ∀ qty, .declined qty ∈ a.ledger → a.tracked = true ∨ qty ≤ hedgedQty a.ledger

def SettlesFills (cfg : GridConfig) (a : Account) : AccountEvent → Prop
  | .pass balance => a.tracked = true →
      (a.NewFill → Affordable cfg balance a.details (a.order.filled - a.known)) ∧
      (a.order.status = .filled → Affordable cfg balance a.details a.details.qty ∨
        a.details.qty ≤ hedgedQty a.ledger) ∧
      (a.order.status = .canceled ∨ a.order.status = .rejected → a.known = a.order.filled)
  | _ => True

structure Settled (a : Account) : Prop where
  sound : a.Sound
  noDecline : a.tracked = true → ∀ qty, .declined qty ∉ a.ledger
  nothingForgotten : a.NothingForgotten

theorem Settled.born (born : a.Born) : a.Settled := by
  have sound := Sound.born born
  obtain ⟨orderId, side, price, qty, valid, rfl⟩ := born
  exact ⟨sound, by simp, ⟨by simp, by simp, by simp⟩⟩

theorem Settled.report (settled : a.Settled) {status : OrderStatus} {filled : ℚ}
    (grows : a.order.filled ≤ filled) (within : filled ≤ a.order.quantity) :
    (a.report status filled).Settled := by
  have same : hedgedQty (a.report status filled).ledger = hedgedQty a.ledger := by
    simp [Account.report, write]
  have kept := settled.nothingForgotten
  refine ⟨settled.sound.report grows within, ?_, ?_⟩
  · intro tracked qty declined
    exact settled.noDecline tracked qty (by simpa [Account.report, write] using declined)
  · constructor
    · intro tracked
      exact same ▸ kept.known tracked
    · intro order left dead
      have before : Entry.left order ∈ a.ledger := by simpa [Account.report, write] using left
      exact same ▸ kept.dropped order before dead
    · intro qty declined
      have before : Entry.declined qty ∈ a.ledger := by
        simpa [Account.report, write] using declined
      exact same ▸ kept.declined qty before

theorem Settled.pass (settled : a.Settled) (tracked : a.tracked = true)
    (settles : a.SettlesFills cfg (.pass balance)) : (a.pass cfg balance).Settled := by
  obtain ⟨newFill, filled, dead⟩ := settles tracked
  have sound := settled.sound
  have kept := settled.nothingForgotten
  have noDecline := settled.noDecline tracked
  have stays := sound.stays tracked
  have passSound : (a.pass cfg balance).Sound := sound.pass tracked
  have outcome := a.passed cfg balance
  generalize a.pass cfg balance = b at outcome passSound ⊢
  cases outcome with
  | unchanged status noFill => exact settled
  | dead status =>
      have all : a.order.filled = hedgedQty a.ledger := by
        rw [← kept.known tracked, dead status]
      refine ⟨passSound, by simp, by simp, ?_, ?_⟩
      · intro order left _
        obtain rfl : order = a.order := by simpa [stays order] using left
        simp [all]
      · intro qty declined
        exact absurd (by simpa using declined) (noDecline qty)
  | filled status =>
      refine ⟨passSound, by simp, by simp, ?_, ?_⟩
      · intro order left other
        obtain rfl : order = a.order := by simpa [stays order] using left
        rcases other with other | other <;> simp [status] at other
      · intro qty declined
        by_cases affordable : Affordable cfg balance a.details a.details.qty
        · simp [hedgeEntry_placed affordable, noDecline qty] at declined
        · have hedged := (filled status).resolve_left affordable
          obtain rfl : qty = a.details.qty := by
            simpa [hedgeEntry_declined affordable, noDecline qty] using declined
          simp [hedgeEntry_declined affordable, hedged]
  | newFill fill =>
      have placed := hedgeEntry_placed (newFill fill)
      rw [placed] at passSound ⊢
      refine ⟨passSound, ?_, ?_, ?_, ?_⟩
      · intro _ qty declined
        exact absurd (by simpa using declined) (noDecline qty)
      · intro _
        simp [← kept.known tracked]
      · intro order left
        exact absurd (by simpa using left) (stays order)
      · intro _ _
        exact .inl tracked

theorem Settled.breaks (settled : a.Settled) (tracked : a.tracked = true)
    (forgets : ¬ a.SettlesFills cfg (.pass balance)) :
    ¬ (a.pass cfg balance).NothingForgotten := by
  intro kept
  apply forgets
  intro _
  have known := settled.nothingForgotten.known tracked
  have outcome := a.passed cfg balance
  generalize a.pass cfg balance = b at outcome kept
  cases outcome with
  | newFill fill =>
      refine ⟨fun _ => ?_, by simp [fill.1], by simp [fill.1]⟩
      by_contra short
      rw [hedgeEntry_declined short] at kept
      have now : a.order.filled = a.known := by simpa [known] using kept.known tracked
      exact fill.2 (by rw [now, sub_self, Utils.round_zero])
  | filled status =>
      refine ⟨fun fill => by simp [NewFill, status] at fill, fun _ => ?_, by simp [status]⟩
      by_contra neither
      obtain ⟨short, more⟩ := not_or.mp neither
      have covered := kept.declined a.details.qty (by simp [hedgeEntry_declined short])
      simp [hedgeEntry_declined short] at covered
      exact more covered
  | dead status =>
      refine ⟨fun fill => ?_, fun filled => ?_, fun _ => ?_⟩
      · rcases status with status | status <;> simp [NewFill, status] at fill
      · rcases status with status | status <;> simp [filled] at status
      · have all := kept.dropped a.order (by simp) status
        simpa [known] using all
  | unchanged status noFill =>
      refine ⟨fun fill => absurd fill noFill, fun filled => ?_, fun dead => ?_⟩
      · rcases status with status | status <;> simp [filled] at status
      · rcases status with status | status <;> simp [status] at dead

end Account

theorem nothingForgotten_iff_settlesFills (cfg : GridConfig) (m : OrderManager)
    (events : List Event)
    (orderly : Along (step cfg) (Orderly cfg) { orderManager := m } events) :
    Always (step cfg) (Accounted Account.NothingForgotten) { orderManager := m } events ↔
      Along (step cfg) (Guarded (Account.SettlesFills cfg)) { orderManager := m } events := by
  apply always_accounted_iff cfg (fun a => Account.Settled.born) ?_
    (fun a => Account.Settled.nothingForgotten) ?_ orderly
  · intro a k allowed settled settles
    cases k with
    | idle => exact settled
    | report status filled => exact settled.report allowed.1 allowed.2
    | pass balance =>
        simp only [Account.move]
        split
        next tracked => exact settled.pass tracked settles
        next => exact settled
  · intro a k allowed settled forgets
    cases k with
    | idle => exact absurd trivial forgets
    | report status filled => exact absurd trivial forgets
    | pass balance =>
        have tracked : a.tracked = true := by
          by_contra untracked
          exact forgets fun tracked => absurd tracked untracked
        simp only [Account.move, tracked, if_true]
        exact settled.breaks tracked forgets

/-- In a run that forgets no fill, and only there, every pass finds room for its hedges, the balance
for the new fills and nothing left to hedge in the orders it drops. -/
theorem stored_nothingForgotten_iff (spare : ℕ → ℕ) (cfg : GridConfig) (m : OrderManager)
    (capacity : ℕ) (events : List Event)
    (orderly : Along (Stored.step spare cfg) (Stored.Permits (Orderly cfg))
      (some ⟨{ orderManager := m }, capacity⟩) events) :
    Always (Stored.step spare cfg) (Stored.Defined (Accounted Account.NothingForgotten))
        (some ⟨{ orderManager := m }, capacity⟩) events ↔
      Along (Stored.step spare cfg) (Stored.Meets cfg (Guarded (Account.SettlesFills cfg)))
        (some ⟨{ orderManager := m }, capacity⟩) events :=
  Stored.always_defined_iff spare cfg (Nat.zero_le capacity) orderly
    (nothingForgotten_iff_settlesFills cfg m events)

def declinedThenCanceled : List Event := [
  .start [.accepted "1"],
  .updateOrder "1" .partiallyFilled 4,
  .setBalance Currency.eur 2000,
  .checkFilledOrders [.accepted "2"],
  -- The balance allows the declined hedge again.
  .setBalance Currency.eur 0,
  .checkFilledOrders [.accepted "2"],
  .updateOrder "1" .canceled 4,
  .checkFilledOrders [.accepted "2"]]

theorem declinedThenCanceled_forgets :
    Along (Stored.step Growing.doubling (ladder 10)) (Stored.Permits (Orderly (ladder 10)))
      (some ⟨{ orderManager := emptyManager }, 0⟩) declinedThenCanceled ∧
    ¬ Always (Stored.step Growing.doubling (ladder 10))
      (Stored.Defined (Accounted Account.NothingForgotten))
      (some ⟨{ orderManager := emptyManager }, 0⟩) declinedThenCanceled := by
  refine ⟨by decide +kernel, fun defined => ?_⟩
  obtain ⟨-, always⟩ := (Stored.always_iff Growing.doubling _ (Nat.zero_le 0)).mp defined
  obtain ⟨a, here, kept⟩ := always.last "1" (by decide +kernel)
  have books : ((run (step (ladder 10)) { orderManager := emptyManager }
      declinedThenCanceled).account "1").map Account.ledger = some
        [.reported .partiallyFilled 4, .declined 4, .reported .canceled 4,
          .left ⟨"1", .buy, 99, 10, 4, .canceled⟩] := by decide +kernel
  rw [here, Option.map_some, Option.some.injEq] at books
  have dropped := kept.dropped ⟨"1", .buy, 99, 10, 4, .canceled⟩ (by simp [books]) (.inl rfl)
  norm_num [books] at dropped

theorem stored_nothingForgotten_declined :
    Always (Stored.step Growing.doubling (ladder 10))
        (Stored.Defined (Accounted Account.NothingForgotten))
        (some ⟨{ orderManager := emptyManager }, 0⟩) declinedThenCanceled ↔
      Along (Stored.step Growing.doubling (ladder 10))
        (Stored.Meets (ladder 10) (Guarded (Account.SettlesFills (ladder 10))))
        (some ⟨{ orderManager := emptyManager }, 0⟩) declinedThenCanceled :=
  stored_nothingForgotten_iff Growing.doubling (ladder 10) emptyManager 0 declinedThenCanceled
    (by decide +kernel)

end SpotGridBot.Strategy
