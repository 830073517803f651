import SpotGridBot.Strategy.GridPrices

/-!
# Passes that other threads interrupt

The order manager's functions each hold its mutex, so that between `GetOrderLocal`, `GetBalance` and
`PlaceLimitOrder` of one visit the user channel may report on orders and balances may change. A pass
is the thread of these calls here; undisturbed it is the pass of one step.
-/

namespace SpotGridBot.Strategy
open Utils SpotGridBot.Core Runs

/-- What the thread that runs the passes does next. The loop is at a position of `m_activeOrders`
and has `left` orders to go. -/
inductive Stage (α : Type := ℚ) where
  | idle
  | loop (left position : ℕ)
  -- A hedge is due, and the balance is read next.
  | hedging (orderId : OrderId) (cause : Cause) (qty : α) (left position : ℕ)
  -- The balance allows it, and the order is placed next.
  | placing (orderId : OrderId) (cause : Cause) (qty : α) (left position : ℕ)

structure InterruptedStrategy (α : Type := ℚ) where
  strategy : GridStrategy α
  capacity : ℕ
  stage : Stage α := .idle

namespace InterruptedStrategy
open GridStrategy

section Steps
variable {α : Type} [Zero α] [One α] [NatCast α] [Add α] [Sub α] [Mul α] [LE α] [LT α]
  [DecidableLE α] [DecidableLT α] [Doubles α] (spare : ℕ → ℕ) (cfg : GridConfig α)
  (s : InterruptedStrategy α)

def begin (replies : List Reply) : InterruptedStrategy α :=
  match s.stage with
  | .idle => { s with
      strategy := { s.strategy with toRemove := [], replies := replies }
      stage := .loop s.strategy.activeOrders.length 0 }
  | _ => s

def finish (orderId : OrderId) (cause : Cause) (left position : ℕ) : InterruptedStrategy α :=
  match cause with
  | .filled _ => { s with
      strategy := s.strategy.markForRemoval orderId
      stage := .loop left (position + 1) }
  | _ => { s with stage := .loop left (position + 1) }

def look (orderId : OrderId) (left position : ℕ) : InterruptedStrategy α :=
  let next := { s with stage := .loop left (position + 1) }
  match s.strategy.orderManager.getOrderLocal orderId with
  | none => next
  | some order =>
      match order.status with
      | .filled => { s with
          strategy := s.strategy.touchDetails orderId
          stage := .hedging orderId (.filled orderId) (s.strategy.details orderId).qty left
            position }
      | .partiallyFilled =>
          let knownFilled := s.strategy.knownFilled orderId
          let strategy := s.strategy.setKnown orderId knownFilled
          let delta := order.filled - knownFilled
          if Doubles.isTrue (Doubles.round delta) then
            { s with
              strategy := (strategy.setKnown orderId order.filled).touchDetails orderId
              stage := .hedging orderId (.partialFill orderId) delta left position }
          else { next with strategy := strategy }
      | .canceled => { next with strategy := s.strategy.markForRemoval orderId }
      | .rejected => { next with strategy := s.strategy.markForRemoval orderId }
      | .new => next

def Passes (orderId : OrderId) (qty : α) : Cause → Prop
  | .partialFill _ => s.strategy.PassesPartial cfg orderId qty
  | _ => s.strategy.PassesFilled cfg orderId

instance (orderId : OrderId) (qty : α) : (cause : Cause) → Decidable (s.Passes cfg orderId qty cause)
  | .grid => inferInstanceAs (Decidable (PassesFilled _ _ _))
  | .filled _ => inferInstanceAs (Decidable (PassesFilled _ _ _))
  | .partialFill _ => inferInstanceAs (Decidable (PassesPartial _ _ _ _))

/-- The next step of the thread; `none` where a hedge moves the storage that the loop goes over.
What a placement throws ends the pass. -/
def think : Option (InterruptedStrategy α) :=
  match s.stage with
  | .idle => some s
  | .loop 0 _ => some { s with
      strategy := { s.strategy.removeAll s.strategy.toRemove with toRemove := [] }
      stage := .idle }
  | .loop (left + 1) position =>
      match s.strategy.activeOrders[position]? with
      | none => none
      | some orderId => some (s.look orderId left position)
  | .hedging orderId cause qty left position =>
      if s.Passes cfg orderId qty cause then
        some { s with stage := .placing orderId cause qty left position }
      else
        some (finish { s with strategy := s.strategy.record (.declined cause qty) } orderId cause
          left position)
  | .placing orderId cause qty left position =>
      let outcome := s.strategy.placeAndTrack cause (hedgeSide (s.strategy.details orderId))
        (hedgePrice cfg (s.strategy.details orderId)) qty
      if outcome.state.activeOrders.length ≤ s.capacity then
        match outcome with
        | .done strategy => some (finish { s with strategy := strategy } orderId cause left position)
        | .thrown strategy => some { s with strategy := strategy, stage := .idle }
      else none

inductive Event (α : Type := ℚ) where
  -- `Start`, before any pass.
  | start (replies : List Reply)
  | begin (replies : List Reply)
  | think
  | updateOrder (orderId : OrderId) (status : OrderStatus) (filled : α)
  | syncOrder (orderId : OrderId) (side : Side) (price quantity : α) (status : OrderStatus)
      (filled : α)
  | setBalance (currency : Currency) (amount : α)

def step : Option (InterruptedStrategy α) → Event α → Option (InterruptedStrategy α)
  | none, _ => none
  | some s, .start replies =>
      match s.stage with
      | .idle =>
          let strategy := Strategy.step cfg s.strategy (.start replies)
          let size := s.strategy.activeOrders.length
          some { s with
            strategy := strategy
            capacity := Growing.pushBacks spare (strategy.activeOrders.length - size) size
              s.capacity }
      | _ => some s
  | some s, .begin replies => some (s.begin replies)
  | some s, .think => s.think cfg
  | some s, .updateOrder orderId status filled =>
      some { s with strategy := Strategy.step cfg s.strategy (.updateOrder orderId status filled) }
  | some s, .syncOrder orderId side price quantity status filled =>
      some { s with
        strategy :=
          Strategy.step cfg s.strategy (.syncOrder orderId side price quantity status filled) }
  | some s, .setBalance currency amount =>
      some { s with strategy := Strategy.step cfg s.strategy (.setBalance currency amount) }

end Steps

section Undisturbed
variable {α : Type} [Zero α] [One α] [Add α] [Sub α] [Mul α] [LE α] [LT α] [DecidableLE α]
  [DecidableLT α] [Doubles α] (cfg : GridConfig α)

def Reaches (s : InterruptedStrategy α) (r : Option (InterruptedStrategy α)) : Prop :=
  ∃ n, (fun r => r.bind (think cfg))^[n] (some s) = r

section Reaches
variable {cfg}

theorem Reaches.refl (s : InterruptedStrategy α) : Reaches cfg s (some s) := ⟨0, rfl⟩

theorem Reaches.step {s s' : InterruptedStrategy α} {r : Option (InterruptedStrategy α)}
    (thinks : s.think cfg = some s') (rest : Reaches cfg s' r) : Reaches cfg s r := by
  obtain ⟨n, ends⟩ := rest
  refine ⟨n + 1, ?_⟩
  rw [Function.iterate_succ_apply, Option.bind_some, thinks]
  exact ends

theorem Reaches.last {s : InterruptedStrategy α} {r : Option (InterruptedStrategy α)}
    (thinks : s.think cfg = r) : Reaches cfg s r := ⟨1, thinks⟩

theorem Reaches.trans {s s' : InterruptedStrategy α} {r : Option (InterruptedStrategy α)}
    (first : Reaches cfg s (some s')) (second : Reaches cfg s' r) : Reaches cfg s r := by
  obtain ⟨n, reached⟩ := first
  obtain ⟨m, rfl⟩ := second
  exact ⟨m + n, by rw [Function.iterate_add_apply, reached]⟩

end Reaches

def after (capacity left position : ℕ) (outcome : Outcome (GridStrategy α)) :
    Option (InterruptedStrategy α) :=
  if outcome.state.activeOrders.length ≤ capacity then
    match outcome with
    | .done strategy => some ⟨strategy, capacity, .loop left (position + 1)⟩
    | .thrown strategy => some ⟨strategy, capacity, .idle⟩
  else none

section Visit
variable (strategy : GridStrategy α) (capacity : ℕ) (orderId : OrderId) (cause : Cause) (qty : α)
  (left position : ℕ)

def marks (strategy : GridStrategy α) : GridStrategy α :=
  match cause with
  | .filled _ => strategy.markForRemoval orderId
  | _ => strategy

theorem hedge_reaches {hedged : Outcome (GridStrategy α)}
    (fits : strategy.activeOrders.length ≤ capacity)
    (cases : (Passes cfg ⟨strategy, capacity, .idle⟩ orderId qty cause ∧ hedged =
        strategy.placeAndTrack cause (hedgeSide (strategy.details orderId))
          (hedgePrice cfg (strategy.details orderId)) qty) ∨
      (¬ Passes cfg ⟨strategy, capacity, .idle⟩ orderId qty cause ∧
        hedged = .done (strategy.record (.declined cause qty)))) :
    Reaches cfg ⟨strategy, capacity, .hedging orderId cause qty left position⟩
      (after capacity left position
        (hedged.bind fun strategy => .done (marks orderId cause strategy))) := by
  have same : ∀ strategy : GridStrategy α,
      (marks orderId cause strategy).activeOrders = strategy.activeOrders := by
    intro strategy
    cases cause with
    | _ => rfl
  rcases cases with ⟨passes, rfl⟩ | ⟨declines, rfl⟩
  · have asks : think cfg ⟨strategy, capacity, .hedging orderId cause qty left position⟩ =
        some ⟨strategy, capacity, .placing orderId cause qty left position⟩ := if_pos passes
    apply Reaches.step asks
    apply Reaches.last
    simp only [think]
    cases placed : strategy.placeAndTrack cause (hedgeSide (strategy.details orderId))
      (hedgePrice cfg (strategy.details orderId)) qty with
    | done strategy' =>
        simp only [Outcome.state_done, Outcome.bind_done, after, same]
        cases cause with
        | _ => rfl
    | thrown strategy' => rfl
  · have declined : think cfg ⟨strategy, capacity, .hedging orderId cause qty left position⟩ =
        some (finish ⟨strategy.record (.declined cause qty), capacity,
          .hedging orderId cause qty left position⟩ orderId cause left position) := if_neg declines
    apply Reaches.last
    rw [declined, Outcome.bind_done, after, Outcome.state_done, same,
      if_pos (show (strategy.record (.declined cause qty)).activeOrders.length ≤ capacity from fits)]
    cases cause with
    | _ => rfl

theorem visit_reaches (fits : strategy.activeOrders.length ≤ capacity)
    (here : strategy.activeOrders[position]? = some orderId) :
    Reaches cfg ⟨strategy, capacity, .loop (left + 1) position⟩
      (after capacity left position (strategy.visit cfg orderId)) := by
  have looks : think cfg ⟨strategy, capacity, .loop (left + 1) position⟩ =
      some (look ⟨strategy, capacity, .loop (left + 1) position⟩ orderId left position) := by
    simp [think, here]
  apply Reaches.step looks
  have idle : ∀ {strategy' : GridStrategy α}, strategy.visit cfg orderId = .done strategy' →
      strategy'.activeOrders = strategy.activeOrders →
      look ⟨strategy, capacity, .loop (left + 1) position⟩ orderId left position =
        ⟨strategy', capacity, .loop left (position + 1)⟩ →
      Reaches cfg (look ⟨strategy, capacity, .loop (left + 1) position⟩ orderId left position)
        (after capacity left position (strategy.visit cfg orderId)) := by
    intro strategy' visited same looked
    rw [visited, looked, after, Outcome.state_done, same, if_pos fits]
    exact .refl _
  cases cached : strategy.orderManager.orders orderId with
  | none =>
      exact idle (visit_unknown cfg cached) rfl (by simp [look, OrderManager.getOrderLocal, cached])
  | some order =>
      cases status : order.status with
      | new =>
          exact idle (visit_new cfg cached status) rfl
            (by simp [look, OrderManager.getOrderLocal, cached, status])
      | canceled =>
          exact idle (visit_dead cfg cached (.inl status)) rfl
            (by simp [look, OrderManager.getOrderLocal, cached, status])
      | rejected =>
          exact idle (visit_dead cfg cached (.inr status)) rfl
            (by simp [look, OrderManager.getOrderLocal, cached, status])
      | filled =>
          have looked : look ⟨strategy, capacity, .loop (left + 1) position⟩ orderId left position =
              ⟨strategy.touchDetails orderId, capacity,
                .hedging orderId (.filled orderId) (strategy.details orderId).qty left position⟩ := by
            simp [look, OrderManager.getOrderLocal, cached, status]
          rw [looked, visit_hedgeFilled cfg cached status]
          apply hedge_reaches cfg (strategy.touchDetails orderId) capacity orderId
            (.filled orderId) (strategy.details orderId).qty left position fits
          simpa only [Passes, PassesFilled, details_touchDetails, orderManager_touchDetails] using
            strategy.hedgeFilled_cases cfg orderId
      | partiallyFilled =>
          cases newFill : Doubles.isTrue
              (Doubles.round (order.filled - strategy.knownFilled orderId)) with
          | false =>
              exact idle (visit_seen cfg cached status newFill) rfl
                (by simp [look, OrderManager.getOrderLocal, cached, status, newFill])
          | true =>
              have looked : look ⟨strategy, capacity, .loop (left + 1) position⟩ orderId left
                  position = ⟨(strategy.setKnown orderId order.filled).touchDetails orderId, capacity,
                    .hedging orderId (.partialFill orderId)
                      (order.filled - strategy.knownFilled orderId) left position⟩ := by
                simp [look, OrderManager.getOrderLocal, cached, status, newFill, setKnown]
              have unwrapped : ∀ outcome : Outcome (GridStrategy α), (outcome.bind fun strategy =>
                  .done (marks orderId (.partialFill orderId) strategy)) = outcome := by
                intro outcome
                cases outcome <;> rfl
              rw [looked, visit_hedgePartial cfg cached status newFill,
                ← unwrapped (hedgePartial _ _ _ _)]
              apply hedge_reaches cfg
                ((strategy.setKnown orderId order.filled).touchDetails orderId) capacity orderId
                (.partialFill orderId) (order.filled - strategy.knownFilled orderId) left position
                fits
              simpa only [Passes, PassesPartial, details_touchDetails, orderManager_touchDetails] using
                (strategy.setKnown orderId order.filled).hedgePartial_cases cfg orderId
                  (order.filled - strategy.knownFilled orderId)

end Visit

/-- A pass that no other thread disturbs is the pass of one step, over the vector that its hedges
are appended to. -/
theorem undisturbed_pass (strategy : GridStrategy α) (capacity : ℕ)
    (fits : strategy.activeOrders.length ≤ capacity) (replies : List Reply) :
    Reaches cfg (begin ⟨strategy, capacity, .idle⟩ replies)
      ((Stored.checkFilledOrders cfg ⟨{ strategy with replies := replies }, capacity⟩).map
        fun passed => ⟨passed.state, capacity, .idle⟩) := by
  have loops : ∀ (left position : ℕ) (strategy : GridStrategy α),
      strategy.activeOrders.length ≤ capacity →
      Reaches cfg ⟨strategy, capacity, .loop left position⟩
        (((Growing.rangeFor GridStrategy.activeOrders (GridStrategy.visit cfg) capacity left position
          strategy).map fun passed => passed.bind fun s =>
            .done { s.removeAll s.toRemove with toRemove := [] }).map
              fun passed => ⟨passed.state, capacity, .idle⟩) := by
    intro left
    induction left with
    | zero => exact fun position strategy fits => .last rfl
    | succ left ih =>
        intro position strategy fits
        simp only [Growing.rangeFor]
        cases here : strategy.activeOrders[position]? with
        | none => exact .last (by simp [think, here])
        | some orderId =>
            have visited := visit_reaches cfg strategy capacity orderId left position fits here
            unfold after at visited
            dsimp only
            split
            next room =>
              rw [if_pos room] at visited
              cases ends : strategy.visit cfg orderId with
              | done strategy' =>
                  rw [ends] at visited room
                  exact visited.trans (ih (position + 1) strategy' room)
              | thrown strategy' =>
                  rw [ends] at visited
                  exact visited
            next moved =>
              rw [if_neg moved] at visited
              exact visited
  exact loops strategy.activeOrders.length 0 { strategy with toRemove := [], replies := replies } fits

end Undisturbed

theorem undisturbed_pass_oneFilled :
    let s := run (Strategy.step (ladder 10)) { orderManager := emptyManager } [
      .start [.accepted "1"], .updateOrder "1" .filled 10]
    Reaches (ladder 10) (begin ⟨s, 2, .idle⟩ [.accepted "2"])
      ((Stored.checkFilledOrders (ladder 10) ⟨{ s with replies := [.accepted "2"] }, 2⟩).map
        fun passed => ⟨passed.state, 2, .idle⟩) :=
  undisturbed_pass (ladder 10) _ 2 (by decide +kernel) [.accepted "2"]

def Stage.Tracked (strategy : GridStrategy) : Stage → Prop
  | .idle => True
  | .loop _ _ => True
  | .hedging orderId cause _ _ _ => cause.parent = some orderId ∧ orderId ∈ strategy.activeOrders
  | .placing orderId cause _ _ _ => cause.parent = some orderId ∧ orderId ∈ strategy.activeOrders

structure Priced (cfg : GridConfig) (s : InterruptedStrategy) : Prop where
  strategy : GridStrategy.Priced cfg s.strategy
  tracked : Stage.Tracked s.strategy s.stage

namespace Priced
variable {cfg : GridConfig} {s s' : InterruptedStrategy} {orderId : OrderId} {cause : Cause}
  {qty : ℚ} {left position : ℕ}

theorem finish (priced : GridStrategy.Priced cfg s.strategy) :
    Priced cfg (finish s orderId cause left position) := by
  unfold InterruptedStrategy.finish
  cases cause with
  | grid => exact ⟨priced, trivial⟩
  | filled parent => exact ⟨priced.frame ⟨rfl, rfl, rfl⟩, trivial⟩
  | partialFill parent => exact ⟨priced, trivial⟩

theorem look (priced : GridStrategy.Priced cfg s.strategy)
    (active : orderId ∈ s.strategy.activeOrders) : Priced cfg (s.look orderId left position) := by
  have marked : GridStrategy.Priced cfg (s.strategy.markForRemoval orderId) :=
    priced.frame ⟨rfl, rfl, rfl⟩
  unfold InterruptedStrategy.look OrderManager.getOrderLocal
  cases s.strategy.orderManager.orders orderId with
  | none => exact ⟨priced, trivial⟩
  | some order =>
      dsimp only
      cases order.status with
      | new => exact ⟨priced, trivial⟩
      | canceled => exact ⟨marked, trivial⟩
      | rejected => exact ⟨marked, trivial⟩
      | filled =>
          dsimp only
          rw [priced.detailed.touchDetails active]
          exact ⟨priced, rfl, active⟩
      | partiallyFilled =>
          dsimp only
          split
          · have known : GridStrategy.Priced cfg
                ((s.strategy.setKnown orderId (s.strategy.knownFilled orderId)).setKnown orderId
                  order.filled) := priced.frame ⟨rfl, rfl, rfl⟩
            rw [known.detailed.touchDetails active]
            exact ⟨known, rfl, active⟩
          · exact ⟨priced.frame ⟨rfl, rfl, rfl⟩, trivial⟩

theorem think (proper : ProperGrid cfg) (priced : Priced cfg s) (thinks : s.think cfg = some s') :
    Priced cfg s' := by
  obtain ⟨strategy, capacity, stage⟩ := s
  obtain ⟨priced, tracked⟩ := priced
  cases stage with
  | idle =>
      obtain rfl := Option.some.inj thinks
      exact ⟨priced, trivial⟩
  | loop left position =>
      cases left with
      | zero =>
          obtain rfl := Option.some.inj thinks
          have removed : ∀ (orderIds : List OrderId) (s : GridStrategy),
              GridStrategy.Priced cfg s → GridStrategy.Priced cfg (s.removeAll orderIds) := by
            intro orderIds
            induction orderIds with
            | nil => exact fun s kept => kept
            | cons orderId orderIds ih => exact fun s kept => ih _ (kept.remove orderId)
          exact ⟨(removed strategy.toRemove strategy priced).frame ⟨rfl, rfl, rfl⟩, trivial⟩
      | succ left =>
          unfold InterruptedStrategy.think at thinks
          dsimp only at thinks
          cases here : strategy.activeOrders[position]? with
          | none => simp [here] at thinks
          | some orderId =>
              obtain rfl : InterruptedStrategy.look _ orderId left position = s' := by
                simpa [here] using thinks
              exact Priced.look priced (List.mem_of_getElem? here)
  | hedging orderId cause qty left position =>
      unfold InterruptedStrategy.think at thinks
      dsimp only at thinks
      split at thinks
      · obtain rfl := Option.some.inj thinks
        exact ⟨priced, tracked⟩
      · obtain rfl := Option.some.inj thinks
        exact finish (priced.decline cause qty)
  | placing orderId cause qty left position =>
      obtain ⟨own, active⟩ := tracked
      have placed := priced.placeHedge proper active own qty
      unfold InterruptedStrategy.think at thinks
      dsimp only at placed thinks
      split at thinks
      next =>
        cases ran : strategy.placeAndTrack cause (hedgeSide (strategy.details orderId))
          (hedgePrice cfg (strategy.details orderId)) qty with
        | done strategy' =>
            rw [ran] at placed thinks
            obtain rfl := Option.some.inj thinks
            exact finish placed.1
        | thrown strategy' =>
            rw [ran] at placed thinks
            obtain rfl := Option.some.inj thinks
            exact ⟨placed, trivial⟩
      next => contradiction

theorem report (priced : Priced cfg s) (orderId : OrderId) (status : OrderStatus) (filled : ℚ)
    (m : OrderManager) :
    Priced cfg { s with
      strategy := { s.strategy.report orderId status filled with orderManager := m } } := by
  refine ⟨priced.strategy.report orderId status filled m, ?_⟩
  have same : (s.strategy.report orderId status filled).activeOrders = s.strategy.activeOrders := by
    unfold GridStrategy.report
    cases s.strategy.orderManager.orders orderId <;> rfl
  have tracked := priced.tracked
  change Stage.Tracked { s.strategy.report orderId status filled with orderManager := m } s.stage
  cases stage : s.stage with
  | idle => trivial
  | loop left position => trivial
  | _ => simpa [Stage.Tracked, stage, same] using tracked

theorem step (spare : ℕ → ℕ) (proper : ProperGrid cfg) (priced : Priced cfg s) (event : Event)
    (steps : step spare cfg (some s) event = some s') : Priced cfg s' := by
  obtain ⟨strategy, capacity, stage⟩ := s
  have supplied : ∀ replies, GridStrategy.Priced cfg { strategy with replies := replies } :=
    fun replies => priced.strategy.frame ⟨rfl, rfl, rfl⟩
  cases event with
  | start replies =>
      cases stage with
      | idle =>
          obtain rfl := Option.some.inj steps
          exact ⟨(supplied replies).start proper, trivial⟩
      | _ =>
          obtain rfl := Option.some.inj steps
          exact priced
  | begin replies =>
      obtain rfl := Option.some.inj steps
      cases stage with
      | idle => exact ⟨priced.strategy.frame ⟨rfl, rfl, rfl⟩, trivial⟩
      | _ => exact priced
  | think => exact priced.think proper steps
  | updateOrder orderId status filled =>
      obtain rfl := Option.some.inj steps
      exact priced.report orderId status filled _
  | syncOrder orderId side price quantity status filled =>
      obtain rfl := Option.some.inj steps
      exact priced.report orderId status filled _
  | setBalance currency amount =>
      obtain rfl := Option.some.inj steps
      refine ⟨priced.strategy.frame ⟨rfl, rfl, rfl⟩, ?_⟩
      have tracked := priced.tracked
      cases stage <;> exact tracked

end Priced

/-- Whatever is reported between the calls of a pass, grid prices stay positive and exact, and
hedges profitable, for as long as the storage is not moved. -/
theorem always_interruptedGridPriced (spare : ℕ → ℕ) (cfg : GridConfig) (proper : ProperGrid cfg)
    (m : OrderManager) (capacity : ℕ) (events : List Event) :
    Always (step spare cfg) (fun r => ∀ s ∈ r, GridPriced cfg s.strategy)
      (some ⟨{ orderManager := m }, capacity, .idle⟩) events := by
  let AllPriced (r : Option InterruptedStrategy) : Prop := ∀ s ∈ r, Priced cfg s
  have initial : AllPriced (some ⟨{ orderManager := m }, capacity, .idle⟩) := by
    rintro s ⟨⟩
    exact ⟨⟨WellPriced.nil, by simp [Detailed], by simp⟩, trivial⟩
  have allowed : Along (step spare cfg) (fun _ _ => True)
      (some ⟨{ orderManager := m }, capacity, .idle⟩) events :=
    along_of_each (fun _ _ => trivial) _ _
  have keeps : ∀ r event, True → AllPriced r → AllPriced (step spare cfg r event) := by
    intro r event _ priced s' steps
    cases r with
    | none => contradiction
    | some s => exact (priced s rfl).step spare proper event steps
  exact (always_of_invariant keeps initial allowed).mono
    fun r priced s member => (priced s member).strategy.gridPriced

theorem always_interruptedGridPriced_ladder :
    Always (step Growing.doubling (ladder 10)) (fun r => ∀ s ∈ r, GridPriced (ladder 10) s.strategy)
      (some ⟨{ orderManager := emptyManager }, 2, .idle⟩) [
        .start [.accepted "1"],
        .updateOrder "1" .partiallyFilled 4,
        .begin [.accepted "2"], .think,
        .updateOrder "1" .filled 10, .think, .think, .think, .think] :=
  always_interruptedGridPriced Growing.doubling (ladder 10) ladder_proper emptyManager 2 _

end InterruptedStrategy

end SpotGridBot.Strategy
