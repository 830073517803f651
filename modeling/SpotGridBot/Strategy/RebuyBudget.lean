import SpotGridBot.Strategy.FullHedges
import SpotGridBot.Strategy.Storage
import SpotGridBot.Strategy.Visits

namespace SpotGridBot.Strategy
open Utils SpotGridBot.Core Runs

def Record.buyCost : Record → ℚ
  | .call _ side price qty _ => if side = .buy then price * qty else 0
  | _ => 0

namespace GridStrategy
variable (cfg : GridConfig) (s : GridStrategy)

def spent : ℚ := (s.history.map Record.buyCost).sum

def passCost : ℚ := (s.checkFilledOrders cfg).state.spent - s.spent

def rebuyCost (orderId : OrderId) : ℚ :=
  let details := s.details orderId
  match s.due orderId with
  | none => 0
  | some (_, qty) =>
      if details.side ≠ .buy ∧ Affordable cfg s.orderManager.balance details qty then
        details.price * (1 - cfg.stepPercent) * qty
      else 0

variable {cfg s}

theorem spent_append {s' : GridStrategy} {entries : List Record}
    (appended : s'.history = s.history ++ entries) :
    s'.spent = s.spent + (entries.map Record.buyCost).sum := by
  simp [spent, appended]

theorem spent_visit (cfg : GridConfig) (s : GridStrategy) (orderId : OrderId) :
    (s.visit cfg orderId).state.spent = s.spent + s.rebuyCost cfg orderId := by
  obtain ⟨entries, recorded, appended⟩ := visit_records cfg s orderId
  rw [spent_append appended]
  congr 1
  cases recorded with
  | idle notDue => simp [rebuyCost, notDue]
  | declined due short => simp [rebuyCost, due, short, Record.buyCost]
  | placed due affordable result =>
      by_cases bought : (s.details orderId).side = .buy
      · simp [rebuyCost, due, bought, Record.buyCost, hedgeSide]
      · simp [rebuyCost, due, bought, affordable, Record.buyCost, hedgeSide, hedgePrice]

theorem spent_removeAll (orderIds : List OrderId) : (s.removeAll orderIds).spent = s.spent := by
  rw [spent_append (history_removeAll s orderIds), List.map_map]
  simp [Function.comp_def, Record.buyCost]

theorem passCost_eq (cfg : GridConfig) (s : GridStrategy) :
    s.passCost cfg = ((s.visits cfg).map fun v => v.1.rebuyCost cfg v.2).sum := by
  have total := Outcome.forEach_total (spent_visit cfg) s.activeOrders { s with toRemove := [] }
  have opened : GridStrategy.spent { s with toRemove := [] } = s.spent := rfl
  rw [opened] at total
  have closed : (s.checkFilledOrders cfg).state.spent =
      (Outcome.forEach (visit cfg) { s with toRemove := [] } s.activeOrders).state.spent := by
    unfold checkFilledOrders
    cases Outcome.forEach (visit cfg) { s with toRemove := [] } s.activeOrders with
    | done s' => exact spent_removeAll (s := s') s'.toRemove
    | thrown s' => rfl
  rw [passCost, closed, total, add_sub_cancel_left]
  rfl

theorem rebuyCost_unknown {i : OrderId} (unknown : s.orderManager.orders i = none) :
    s.rebuyCost cfg i = 0 := by
  simp [rebuyCost, due, unknown]

structure Named (s : GridStrategy) (ids : List OrderId) : Prop where
  unnamed : s.orderManager.orders "" = none
  nodup : (ids.filter (· ≠ "")).Nodup
  cached : ∀ i ∈ ids, i ≠ "" → (s.orderManager.orders i).isSome

structure Steady (first : GridStrategy) (rest : List OrderId) (s : GridStrategy) : Prop where
  named : s.Named rest
  fresh : FreshIds s.orderManager s.replies
  balance : s.orderManager.balance = first.orderManager.balance
  orders : ∀ i ∈ rest, i ≠ "" → s.orderManager.orders i = first.orderManager.orders i
  details : ∀ i ∈ rest, i ≠ "" → s.details i = first.details i
  known : ∀ i ∈ rest, i ≠ "" → s.knownFilled i = first.knownFilled i
  unnamed : first.orderManager.orders "" = none

section Steady
variable {first s' : GridStrategy} {orderId : OrderId} {rest : List OrderId}

theorem Steady.rebuyCost (steady : Steady first rest s) {i : OrderId} (member : i ∈ rest) :
    s.rebuyCost cfg i = first.rebuyCost cfg i := by
  by_cases empty : i = ""
  · rw [empty, rebuyCost_unknown steady.named.unnamed, rebuyCost_unknown steady.unnamed]
  · simp only [GridStrategy.rebuyCost, due, steady.orders i member empty,
      steady.details i member empty, steady.known i member empty, steady.balance]

theorem Steady.next (steady : Steady first (orderId :: rest) s)
    (unnamed : s'.orderManager.orders "" = none) (fresh : FreshIds s'.orderManager s'.replies)
    (balance : s'.orderManager.balance = s.orderManager.balance)
    (orders : ∀ i, (s.orderManager.orders i).isSome →
      s'.orderManager.orders i = s.orderManager.orders i)
    (details : ∀ i, i ≠ "" → (s.orderManager.orders i).isSome → s'.details i = s.details i)
    (known : ∀ i, i ≠ orderId → s'.knownFilled i = s.knownFilled i) :
    Steady first rest s' := by
  have member : ∀ i ∈ rest, i ∈ orderId :: rest := fun i later => List.mem_cons_of_mem _ later
  have cached : ∀ i ∈ rest, i ≠ "" → (s.orderManager.orders i).isSome := fun i later =>
    steady.named.cached i (member i later)
  have other : ∀ i ∈ rest, i ≠ "" → i ≠ orderId := by
    rintro i later nonempty rfl
    have nodup := steady.named.nodup
    rw [List.filter_cons_of_pos (by simpa using nonempty)] at nodup
    exact (List.nodup_cons.mp nodup).1 (List.mem_filter.mpr ⟨later, by simpa using nonempty⟩)
  exact
    { named :=
        { unnamed := unnamed
          nodup := steady.named.nodup.sublist ((List.sublist_cons_self orderId rest).filter _)
          cached := fun i later nonempty => by
            rw [orders i (cached i later nonempty)]
            exact cached i later nonempty }
      fresh := fresh
      balance := balance.trans steady.balance
      orders := fun i later nonempty =>
        (orders i (cached i later nonempty)).trans (steady.orders i (member i later) nonempty)
      details := fun i later nonempty =>
        (details i nonempty (cached i later nonempty)).trans
          (steady.details i (member i later) nonempty)
      known := fun i later nonempty =>
        (known i (other i later nonempty)).trans (steady.known i (member i later) nonempty)
      unnamed := steady.unnamed }

theorem Steady.frame (steady : Steady first (orderId :: rest) s)
    (manager : s'.orderManager = s.orderManager) (replies : s'.replies = s.replies)
    (details : ∀ i, s'.details i = s.details i)
    (known : ∀ i, i ≠ orderId → s'.knownFilled i = s.knownFilled i) : Steady first rest s' := by
  apply steady.next _ _ _ _ (fun i _ _ => details i) known
  · rw [manager]
    exact steady.named.unnamed
  · rw [manager, replies]
    exact steady.fresh
  · rw [manager]
  · intro i _
    rw [manager]

theorem idle_details {s₁ : GridStrategy} (idle : Idle orderId (s.touchDetails orderId) s₁)
    (i : OrderId) : s₁.details i = s.details i := by
  have touched : (s.touchDetails orderId).details i = s.details i := s.details_touchDetails
  rw [← touched]
  simp only [GridStrategy.details, idle.orderDetails]

theorem Steady.place (steady : Steady first (orderId :: rest) s) {s₁ : GridStrategy}
    (idle : Idle orderId (s.touchDetails orderId) s₁) (cause : Cause) (side : Side)
    (price qty : ℚ) :
    (s₁.placeAndTrack cause side price qty).Ends (Steady first rest) fun _ => True := by
  have manager : s₁.orderManager = s.orderManager := idle.orderManager
  have replies : s₁.replies = s.replies := idle.replies
  have details : ∀ i, s₁.details i = s.details i := idle_details idle
  have known : ∀ i, i ≠ orderId → s₁.knownFilled i = s.knownFilled i := idle.known
  have fresh : FreshIds s₁.orderManager s₁.replies := by
    rw [manager, replies]
    exact steady.fresh
  have unnamed : s₁.orderManager.orders "" = none := by
    rw [manager]
    exact steady.named.unnamed
  rcases s₁.placeAndTrack_cases cause side price qty with
    ⟨-, -, ends⟩ | ⟨-, -, ends⟩ | ⟨newId, -, accepted, ends⟩
  · rw [ends]
    trivial
  · rw [ends]
    show Steady first rest (s₁.refuse cause ⟨side, price, qty⟩)
    apply steady.next
    · exact unnamed
    · exact fresh.tail
    · exact congrArg OrderManager.balance manager
    · exact fun i _ => congrArg (fun m => m.orders i) manager
    · intro i nonempty _
      rw [← details i]
      simp [GridStrategy.details, nonempty]
    · exact known
  · rw [ends]
    obtain ⟨nonempty, absent, freshNext⟩ := fresh.next accepted
    have other : ∀ i, (s.orderManager.orders i).isSome → i ≠ newId := by
      rintro i cached rfl
      simp [← manager, absent] at cached
    show Steady first rest (s₁.accept cause newId ⟨side, price, qty⟩)
    apply steady.next
    · simp [Ne.symm nonempty, unnamed]
    · exact freshNext _
    · show s₁.orderManager.balance = s.orderManager.balance
      rw [manager]
    · intro i cached
      simp [other i cached, manager]
    · intro i _ cached
      rw [← details i]
      simp [GridStrategy.details, other i cached]
    · exact known

theorem Steady.visit (steady : Steady first (orderId :: rest) s) :
    (s.visit cfg orderId).Ends (Steady first rest) fun _ => True := by
  cases due : s.due orderId with
  | none =>
      obtain ⟨s', visited, idle, -⟩ := visit_idle cfg due
      rw [visited]
      have details : ∀ i, s'.details i = s.details i := fun i => by
        simp only [GridStrategy.details, idle.orderDetails]
      exact steady.frame idle.orderManager idle.replies details idle.known
  | some hedged =>
      obtain ⟨cause, qty⟩ := hedged
      obtain ⟨s₁, marks, idle, -, visited⟩ := visit_due cfg due
      rw [visited]
      have hedges : (Strategy.hedge cfg cause (s.details orderId) qty s₁).Ends
          (Steady first rest) fun _ => True := by
        unfold Strategy.hedge
        split
        · exact steady.place idle cause _ _ qty
        · show Steady first rest (s₁.record (.declined cause qty))
          have details : ∀ i, s₁.details i = s.details i := idle_details idle
          exact steady.frame idle.orderManager idle.replies details idle.known
      exact hedges.bind fun s' kept =>
        { kept with named := { kept.named with } }

end Steady

theorem passCost_steady (cfg : GridConfig) (named : s.Named s.activeOrders)
    (fresh : FreshIds s.orderManager s.replies) :
    ∃ visited, visited <+: s.activeOrders ∧
      s.passCost cfg = (visited.map (s.rebuyCost cfg)).sum ∧
      ∀ s', s.checkFilledOrders cfg = .done s' → visited = s.activeOrders := by
  have opened : Steady s s.activeOrders { s with toRemove := [] } :=
    { named := { named with }, fresh := fresh, balance := rfl, orders := fun _ _ _ => rfl
      details := fun _ _ _ => rfl, known := fun _ _ _ => rfl, unnamed := named.unnamed }
  obtain ⟨isPrefix, whole⟩ := Outcome.iterations_prefix (visit cfg) { s with toRemove := [] }
    s.activeOrders
  refine ⟨_, isPrefix, ?_, fun s' ends => ?_⟩
  · rw [passCost_eq, List.map_map]
    congr 1
    apply List.map_congr_left
    intro v member
    obtain ⟨rest, steady⟩ :=
      Outcome.iterations_invariant (fun _ _ _ steady => steady.visit) opened v member
    exact steady.rebuyCost List.mem_cons_self
  · unfold checkFilledOrders at ends
    cases ran : Outcome.forEach (visit cfg) { s with toRemove := [] } s.activeOrders with
    | done s₁ => exact whole s₁ ran
    | thrown s₁ => simp [ran] at ends

end GridStrategy

open GridStrategy

theorem passCost_le_iff (cfg : GridConfig) (s : GridStrategy) :
    let budget := Utils.round (s.orderManager.balance cfg.instrument.quoteCCY)
    (s.passCost cfg ≤ budget ↔
      ((s.visits cfg).map fun v => v.1.rebuyCost cfg v.2).sum ≤ budget) ∧
    (s.Named s.activeOrders → FreshIds s.orderManager s.replies →
      (∃ s', s.checkFilledOrders cfg = .done s') →
      (s.passCost cfg ≤ budget ↔ (s.activeOrders.map (s.rebuyCost cfg)).sum ≤ budget)) := by
  intro budget
  constructor
  · rw [passCost_eq]
  · rintro named fresh ⟨s', ends⟩
    obtain ⟨visited, -, cost, whole⟩ := passCost_steady cfg named fresh
    rw [cost, whole s' ends]

/-- A pass stays within the quote balance when its hedges find room and the re-buys its visits find
due cost no more together; when no answer to a placement fails, these are the re-buys due before the
pass. -/
theorem stored_passCost_le_iff (cfg : GridConfig) (s : GridStrategy) (capacity : ℕ)
    (fits : s.activeOrders.length ≤ capacity) :
    let budget := Utils.round (s.orderManager.balance cfg.instrument.quoteCCY)
    let WithinBudget := ∃ passed ∈ Stored.checkFilledOrders cfg ⟨s, capacity⟩,
      passed.state.spent - s.spent ≤ budget
    (WithinBudget ↔ s.HasRoom cfg capacity ∧
      ((s.visits cfg).map fun v => v.1.rebuyCost cfg v.2).sum ≤ budget) ∧
    (s.Named s.activeOrders → FreshIds s.orderManager s.replies →
      (∃ s', Stored.checkFilledOrders cfg ⟨s, capacity⟩ = some (.done s')) →
      (WithinBudget ↔ (s.activeOrders.map (s.rebuyCost cfg)).sum ≤ budget)) := by
  intro budget WithinBudget
  obtain ⟨cost, before⟩ := passCost_le_iff cfg s
  have passes := Stored.checkFilledOrders_eq cfg fits
  by_cases room : s.HasRoom cfg capacity
  · rw [if_pos room] at passes
    have within : WithinBudget ↔ s.passCost cfg ≤ budget := by
      simp [WithinBudget, passes, passCost]
    refine ⟨by rw [within, cost]; simp [room, budget], ?_⟩
    rintro named fresh ⟨s', ends⟩
    rw [within]
    exact before named fresh ⟨s', Option.some.inj (passes.symm.trans ends)⟩
  · rw [if_neg room] at passes
    refine ⟨by simp [WithinBudget, passes, room], ?_⟩
    rintro - - ⟨s', ends⟩
    rw [passes] at ends
    contradiction

def twoSold : List Event := [
  .start [.accepted "1", .accepted "2", .accepted "3", .accepted "4", .accepted "5"],
  .setBalance Currency.usd 1100,
  .updateOrder "1" .filled 10,
  .updateOrder "2" .filled 10]

def sellLadder : GridConfig := { ladder 10 with levelsBelow := 0, levelsAbove := 5 }

theorem twoSold_overspends :
    let s : GridStrategy := { run (step sellLadder) { orderManager := emptyManager } twoSold with
      replies := [.accepted "6", .accepted "7"] }
    s.activeOrders.length ≤ 8 ∧
    (Stored.checkFilledOrders sellLadder ⟨s, 8⟩).map (fun passed => passed.state.spent - s.spent) =
      some (20097 / 10) ∧
    ¬ ∃ passed ∈ Stored.checkFilledOrders sellLadder ⟨s, 8⟩, passed.state.spent - s.spent ≤
      Utils.round (s.orderManager.balance sellLadder.instrument.quoteCCY) := by
  decide +kernel

theorem stored_passCost_le_iff_twoSold :
    let s : GridStrategy := { run (step sellLadder) { orderManager := emptyManager } twoSold with
      replies := [.accepted "6", .accepted "7"] }
    let budget := Utils.round (s.orderManager.balance sellLadder.instrument.quoteCCY)
    (∃ passed ∈ Stored.checkFilledOrders sellLadder ⟨s, 8⟩, passed.state.spent - s.spent ≤ budget) ↔
      s.HasRoom sellLadder 8 ∧
        ((s.visits sellLadder).map fun v => v.1.rebuyCost sellLadder v.2).sum ≤ budget :=
  (stored_passCost_le_iff sellLadder _ 8 (by decide +kernel)).1

end SpotGridBot.Strategy
