import SpotGridBot.Strategy.Simulation
import Mathlib.Tactic.Linarith

namespace SpotGridBot.Strategy
open Utils SpotGridBot.Core Runs

def Entry.hedgedQty : Entry → ℚ
  | .hedged _ qty => qty
  | _ => 0

def Entry.reportsFilled : Entry → Bool
  | .reported .filled _ => true
  | _ => false

@[simp] theorem Entry.hedgedQty_hedged (side : Side) (qty : ℚ) :
    (Entry.hedged side qty).hedgedQty = qty := rfl
@[simp] theorem Entry.hedgedQty_declined (qty : ℚ) : (Entry.declined qty).hedgedQty = 0 := rfl
@[simp] theorem Entry.hedgedQty_left (order : Order) : (Entry.left order).hedgedQty = 0 := rfl
@[simp] theorem Entry.hedgedQty_reported (status : OrderStatus) (filled : ℚ) :
    (Entry.reported status filled).hedgedQty = 0 := rfl
@[simp] theorem Entry.reportsFilled_left (order : Order) :
    (Entry.left order).reportsFilled = false := rfl

def hedgedQty (ledger : List Entry) : ℚ := (ledger.map Entry.hedgedQty).sum

def reportedFilled (ledger : List Entry) : Bool := ledger.any Entry.reportsFilled

@[simp] theorem hedgedQty_append (ledger entries : List Entry) :
    hedgedQty (ledger ++ entries) = hedgedQty ledger + hedgedQty entries := by
  simp [hedgedQty]

@[simp] theorem hedgedQty_cons (entry : Entry) (entries : List Entry) :
    hedgedQty (entry :: entries) = entry.hedgedQty + hedgedQty entries := rfl

@[simp] theorem hedgedQty_nil : hedgedQty [] = 0 := rfl

@[simp] theorem reportedFilled_append (ledger entries : List Entry) :
    reportedFilled (ledger ++ entries) = (reportedFilled ledger || reportedFilled entries) := by
  simp [reportedFilled]

@[simp] theorem reportedFilled_cons (entry : Entry) (entries : List Entry) :
    reportedFilled (entry :: entries) = (entry.reportsFilled || reportedFilled entries) := rfl

@[simp] theorem reportedFilled_nil : reportedFilled [] = false := rfl

namespace Account
variable {cfg : GridConfig} {balance : Currency → ℚ} {a : Account}

def hedgeEntry (cfg : GridConfig) (balance : Currency → ℚ) (a : Account) (qty : ℚ) : Entry :=
  if Affordable cfg balance a.details qty then .hedged (hedgeSide a.details) qty else .declined qty

theorem hedgeEntry_placed {qty : ℚ} (affordable : Affordable cfg balance a.details qty) :
    a.hedgeEntry cfg balance qty = .hedged (hedgeSide a.details) qty := if_pos affordable

theorem hedgeEntry_declined {qty : ℚ} (short : ¬ Affordable cfg balance a.details qty) :
    a.hedgeEntry cfg balance qty = .declined qty := if_neg short

theorem hedgedQty_hedgeEntry (cfg : GridConfig) (balance : Currency → ℚ) (a : Account) (qty : ℚ) :
    (a.hedgeEntry cfg balance qty).hedgedQty = 0 ∨
      (a.hedgeEntry cfg balance qty).hedgedQty = qty := by
  unfold hedgeEntry
  split
  · exact .inr rfl
  · exact .inl rfl

inductive Passed (cfg : GridConfig) (balance : Currency → ℚ) (a : Account) : Account → Prop where
  | filled (status : a.order.status = .filled) : Passed cfg balance a
      { order := a.order, details := ⟨.invalid, 0, 0⟩, known := 0, tracked := false
        ledger := a.ledger ++ [a.hedgeEntry cfg balance a.details.qty, .left a.order] }
  | dead (status : a.order.status = .canceled ∨ a.order.status = .rejected) :
      Passed cfg balance a
        { order := a.order, details := ⟨.invalid, 0, 0⟩, known := 0, tracked := false
          ledger := a.ledger ++ [.left a.order] }
  | newFill (fill : a.NewFill) : Passed cfg balance a
      { a with
        known := a.order.filled
        ledger := a.ledger ++ [a.hedgeEntry cfg balance (a.order.filled - a.known)] }
  | unchanged (status : a.order.status = .new ∨ a.order.status = .partiallyFilled)
      (noFill : ¬ a.NewFill) : Passed cfg balance a a

theorem passed (cfg : GridConfig) (balance : Currency → ℚ) (a : Account) :
    a.Passed cfg balance (a.pass cfg balance) := by
  cases status : a.order.status with
  | filled =>
      have left : a.pass cfg balance = (a.hedge cfg balance a.details.qty).leave := by
        simp [pass, visit, Closed, status]
      simpa [left, leave, hedge, write, hedgeEntry] using Passed.filled status
  | canceled =>
      have left : a.pass cfg balance = a.leave := by
        simp [pass, visit, Closed, NewFill, status]
      simpa [left, leave] using Passed.dead (.inl status)
  | rejected =>
      have left : a.pass cfg balance = a.leave := by
        simp [pass, visit, Closed, NewFill, status]
      simpa [left, leave] using Passed.dead (.inr status)
  | new =>
      have noFill : ¬ a.NewFill := by simp [NewFill, status]
      have same : a.pass cfg balance = a := by simp [pass, visit, Closed, status, noFill]
      simpa [same] using Passed.unchanged (.inl status) noFill
  | partiallyFilled =>
      by_cases fill : a.NewFill
      · have hedged : a.pass cfg balance =
            { a with known := a.order.filled }.hedge cfg balance (a.order.filled - a.known) := by
          simp [pass, visit, Closed, status, fill]
        simpa [hedged, hedge, write, hedgeEntry] using Passed.newFill fill
      · have same : a.pass cfg balance = a := by simp [pass, visit, Closed, status, fill]
        simpa [same] using Passed.unchanged (.inr status) fill

structure Sound (a : Account) : Prop where
  side : a.order.side ≠ .invalid
  details : a.tracked = true → a.details = ⟨a.order.side, a.order.price, a.order.quantity⟩
  nonneg : 0 ≤ a.order.filled
  known : a.tracked = true → a.known ≤ a.order.filled
  reported : a.order.status = .filled → reportedFilled a.ledger = true
  within : reportedFilled a.ledger = true → a.order.filled ≤ a.order.quantity
  stays : a.tracked = true → ∀ order, .left order ∉ a.ledger
  leftFilled : ∀ order, .left order ∈ a.ledger → order.status = .filled →
    reportedFilled a.ledger = true
  opposite : ∀ side qty, .hedged side qty ∈ a.ledger → side = a.order.side.reverse

theorem Sound.born (born : a.Born) : a.Sound := by
  obtain ⟨orderId, side, price, qty, valid, rfl⟩ := born
  constructor <;> simp [valid]

theorem hedgeEntry_side (sound : a.Sound) (tracked : a.tracked = true) {qty qty' : ℚ} {side : Side}
    (entry : a.hedgeEntry cfg balance qty = .hedged side qty') : side = a.order.side.reverse := by
  have valid := sound.side
  rw [hedgeEntry, sound.details tracked] at entry
  split at entry
  · cases own : a.order.side with
    | invalid => contradiction
    | buy => simp_all [hedgeSide, Side.reverse]
    | sell => simp_all [hedgeSide, Side.reverse]
  · contradiction

@[simp] theorem reportsFilled_hedgeEntry (qty : ℚ) :
    (a.hedgeEntry cfg balance qty).reportsFilled = false := by
  unfold hedgeEntry
  split <;> rfl

@[simp] theorem hedgeEntry_ne_left (qty : ℚ) (order : Order) :
    Entry.left order ≠ a.hedgeEntry cfg balance qty := by
  unfold hedgeEntry
  split <;> simp

theorem Sound.pass (sound : a.Sound) (tracked : a.tracked = true) :
    (a.pass cfg balance).Sound := by
  have outcome := a.passed cfg balance
  generalize a.pass cfg balance = b at outcome ⊢
  cases outcome with
  | filled status =>
      have reported := sound.reported status
      exact
        { side := sound.side
          details := by simp
          nonneg := sound.nonneg
          known := by simp
          reported := by simp [reported]
          within := fun _ => sound.within reported
          stays := by simp
          leftFilled := by simp [reported]
          opposite := by
            intro side qty member
            simp only [List.mem_append, List.mem_cons, List.not_mem_nil, or_false] at member
            rcases member with old | new | left
            · exact sound.opposite side qty old
            · exact hedgeEntry_side sound tracked new.symm
            · contradiction }
  | dead status =>
      have open' : a.order.status ≠ .filled := by
        rcases status with status | status <;> simp [status]
      exact
        { side := sound.side
          details := by simp
          nonneg := sound.nonneg
          known := by simp
          reported := by simp [open']
          within := by simpa using sound.within
          stays := by simp
          leftFilled := by
            intro order member filled
            simp only [List.mem_append, List.mem_singleton, Entry.left.injEq] at member
            rcases member with old | rfl
            · exact absurd old (sound.stays tracked order)
            · exact absurd filled open'
          opposite := by simpa using sound.opposite }
  | newFill fill =>
      exact
        { side := sound.side
          details := sound.details
          nonneg := sound.nonneg
          known := fun _ => le_rfl
          reported := by simp [fill.1]
          within := by simpa using sound.within
          stays := by simpa using sound.stays
          leftFilled := by
            intro order member
            simp only [List.mem_append, List.mem_singleton, hedgeEntry_ne_left, or_false] at member
            exact absurd member (sound.stays tracked order)
          opposite := by
            intro side qty member
            rcases List.mem_append.mp member with old | new
            · exact sound.opposite side qty old
            · exact hedgeEntry_side sound tracked (List.mem_singleton.mp new).symm }
  | unchanged status noFill => exact sound

theorem Sound.report (sound : a.Sound) {status : OrderStatus} {filled : ℚ}
    (grows : a.order.filled ≤ filled) (within : filled ≤ a.order.quantity) :
    (a.report status filled).Sound where
  side := sound.side
  details := sound.details
  nonneg := sound.nonneg.trans grows
  known tracked := (sound.known tracked).trans grows
  reported now := by
    have same : status = .filled := now
    simp [Account.report, write, same, Entry.reportsFilled]
  within _ := within
  stays tracked order left := by
    have old : Entry.left order ∈ a.ledger := by simpa [Account.report, write] using left
    exact sound.stays tracked order old
  leftFilled order left status := by
    have old : Entry.left order ∈ a.ledger := by simpa [Account.report, write] using left
    have before := sound.leftFilled order old status
    simp [Account.report, write, before]
  opposite side qty hedged := by
    have old : Entry.hedged side qty ∈ a.ledger := by simpa [Account.report, write] using hedged
    exact sound.opposite side qty old

end Account

end SpotGridBot.Strategy
