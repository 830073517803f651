import SpotGridBot.Binance.ConnectionMD
import SpotGridBot.Feed.LevelBatches

namespace SpotGridBot.Binance.ConnectionMD
open Utils Feed Runs

variable (reg : Registry) (quoted : CurrencyPair → Bool → Level → Prop)
  (exchange : ℤ → PriceLevels) (L : ℤ) (s : ConnectionMD)

/-- A message with the sizes, at its last id, of the levels that changed since its first. -/
structure Genuine (jd : DepthMessage) : Prop where
  valid : (reg.getCurrencyPair jd.s).Valid
  bids : ∀ level ∈ jd.bids, quoted (reg.getCurrencyPair jd.s) true level
  asks : ∀ level ∈ jd.asks, quoted (reg.getCurrencyPair jd.s) false level
  carries : ∀ id, jd.U - 1 ≤ id → id ≤ jd.u →
    (exchange id).setSides (reg.getCurrencyPair jd.s) jd.bids jd.asks = exchange jd.u

def shownId : ℤ := (s.applied.getLast?.map DepthMessage.u).getD L

def Joins (jd : DepthMessage) : Prop := s.Applies jd →
  (s.applied ≠ [] → jd.U ≠ s.lastUpdateId + 1) ∧
  s.base.GoesThroughSides reg jd.bids jd.asks jd.s

def AllJoin : Event → Prop
  | .depthUpdate jd => s.snapshot (reg.getCurrencyPair jd.s) = true →
      Along (next reg) (Joins reg) s (s.messages ++ [jd])
  | _ => True

instance (jd : DepthMessage) : Decidable (s.Joins reg jd) :=
  inferInstanceAs (Decidable (s.Applies jd → _ ∧ _))

instance : (e : Event) → Decidable (s.AllJoin reg e)
  | .depthUpdate jd => inferInstanceAs (Decidable (s.snapshot (reg.getCurrencyPair jd.s) = true →
      Along (next reg) (Joins reg) s (s.messages ++ [jd])))
  | .snapshotReceived _ _ => .isTrue trivial
  | .snapshotPublished _ _ _ => .isTrue trivial
  | .snapshotFinished _ => .isTrue trivial

structure Follows : Prop where
  refines : Refines (sent reg quoted) s.base (exchange (s.shownId L))
  lastUpdateId : s.lastUpdateId = if s.applied = [] then L else s.shownId L + 1
  messages : ∀ jd ∈ s.messages, Genuine reg quoted exchange jd

def session (inst : String) (L : ℤ) (bids asks : List Level)
    (before meanwhile waiting later : List DepthMessage) : List Event :=
  before.map .depthUpdate ++ .snapshotReceived inst L :: meanwhile.map .depthUpdate ++
    .snapshotPublished inst bids asks :: waiting.map .depthUpdate ++
    .snapshotFinished inst :: later.map .depthUpdate

section Follow
variable {reg quoted exchange L s} {jd : DepthMessage}

theorem publish_done {base : ConnectionBaseMD} {bids asks : List Level} {instrument : String}
    (published : s.base.publishSides reg bids asks instrument = .done base) :
    s.publish reg bids asks instrument = .done { s with base } := by
  rw [publish, published]
  rfl

theorem next_of_applies (applies : s.Applies jd) {base : ConnectionBaseMD}
    (published : s.base.publishSides reg jd.bids jd.asks jd.s = .done base) :
    s.next reg jd = { s with
      base, stale := false, lastUpdateId := jd.u + 1, applied := s.applied ++ [jd] } := by
  have kept : ¬ (s.stale = true ∧ jd.u ≤ s.lastUpdateId) := applies.1
  have within : jd.U ≤ s.lastUpdateId + 1 ∧ jd.u ≥ s.lastUpdateId := applies.2
  unfold next depthUpdate
  rw [if_neg kept]
  dsimp only
  rw [if_pos within, publish_done (s := { s with stale := false }) published]
  rfl

theorem shownId_within (follows : s.Follows reg quoted exchange L) (applies : s.Applies jd)
    (joined : s.applied ≠ [] → jd.U ≠ s.lastUpdateId + 1) :
    jd.U - 1 ≤ s.shownId L ∧ s.shownId L ≤ jd.u := by
  obtain ⟨starts, reaches⟩ := applies.2
  have lastUpdateId := follows.lastUpdateId
  by_cases first : s.applied = []
  · have shown : s.shownId L = L := by simp [shownId, first]
    rw [if_pos first] at lastUpdateId
    omega
  · have apart := joined first
    rw [if_neg first] at lastUpdateId
    omega

theorem follows_next (consistent : reg.Consistent) (texts : Texts reg quoted)
    (genuine : Genuine reg quoted exchange jd) (follows : s.Follows reg quoted exchange L)
    (joins : s.Joins reg jd) : (s.next reg jd).Follows reg quoted exchange L := by
  by_cases applies : s.Applies jd
  · obtain ⟨joined, whole⟩ := joins applies
    obtain ⟨starts, reaches⟩ := shownId_within follows applies joined
    obtain ⟨base, published, refines⟩ := publishSides_refines consistent texts genuine.valid
      genuine.bids genuine.asks whole follows.refines
    have shown : (s.next reg jd).shownId L = jd.u := by
      rw [next_of_applies applies published]
      simp [shownId]
    constructor
    · rw [shown, next_of_applies applies published, ← genuine.carries _ starts reaches]
      exact refines
    · rw [shown, next_of_applies applies published]
      simp
    · rw [next_messages]
      exact follows.messages
  · rcases s.next_cases reg jd with ⟨-, next⟩ | ⟨-, -, next⟩ | ⟨impossible, -⟩
    · rw [next]
      exact follows
    · rw [next]
      exact ⟨follows.refines, follows.lastUpdateId, follows.messages⟩
    · exact absurd impossible applies

theorem follows_run (consistent : reg.Consistent) (texts : Texts reg quoted) {jds : List DepthMessage}
    (genuine : ∀ jd ∈ jds, Genuine reg quoted exchange jd)
    (follows : s.Follows reg quoted exchange L) (joined : Along (next reg) (Joins reg) s jds) :
    (run (next reg) s jds).Follows reg quoted exchange L := by
  induction jds generalizing s with
  | nil => exact follows
  | cons jd jds ih =>
      obtain ⟨here, later⟩ := List.forall_mem_cons.mp genuine
      exact ih later (follows_next consistent texts here follows joined.1) joined.2

theorem follows_step (consistent : reg.Consistent) (texts : Texts reg quoted)
    (genuine : Genuine reg quoted exchange jd) (follows : s.Follows reg quoted exchange L)
    (joined : s.AllJoin reg (.depthUpdate jd)) :
    (s.step reg (.depthUpdate jd)).Follows reg quoted exchange L := by
  have queued : ∀ jd' ∈ s.messages ++ [jd], Genuine reg quoted exchange jd' := by
    intro jd' member
    rcases List.mem_append.mp member with old | new
    · exact follows.messages jd' old
    · rw [List.mem_singleton.mp new]
      exact genuine
  rw [step_depthUpdate]
  split
  next ready =>
    have after := follows_run consistent texts queued follows (joined ready)
    refine ⟨after.refines, after.lastUpdateId, ?_⟩
    intro jd' member
    contradiction
  next => exact ⟨follows.refines, follows.lastUpdateId, queued⟩

theorem follows_updates (consistent : reg.Consistent) (texts : Texts reg quoted)
    {jds : List DepthMessage} (genuine : ∀ jd ∈ jds, Genuine reg quoted exchange jd)
    (follows : s.Follows reg quoted exchange L)
    (joined : Along (step reg) (AllJoin reg) s (jds.map .depthUpdate)) :
    (run (step reg) s (jds.map .depthUpdate)).Follows reg quoted exchange L := by
  induction jds generalizing s with
  | nil => exact follows
  | cons jd jds ih =>
      obtain ⟨here, later⟩ := List.forall_mem_cons.mp genuine
      rw [List.map_cons] at joined ⊢
      exact ih later (follows_step consistent texts here follows joined.1) joined.2

theorem run_cached (unfinished : ∀ cp, s.snapshot cp = false) (jds : List DepthMessage) :
    run (step reg) s (jds.map .depthUpdate) = { s with messages := s.messages ++ jds } := by
  induction jds generalizing s with
  | nil => rw [List.map_nil, run_nil, List.append_nil]
  | cons jd jds ih =>
      have cached : s.step reg (.depthUpdate jd) =
          { s with messages := s.messages ++ [jd] } := by
        rw [step_depthUpdate, unfinished]
        rfl
      have later := ih (s := { s with messages := s.messages ++ [jd] }) unfinished
      rw [List.append_assoc] at later
      rw [List.map_cons, run_cons, cached]
      exact later

theorem run_session {base : ConnectionBaseMD} {inst : String} {bids asks : List Level}
    (unfinished : ∀ cp, s.snapshot cp = false)
    (published : s.base.publishSides reg bids asks inst = .done base)
    (before meanwhile waiting : List DepthMessage) :
    run (step reg) s (session inst L bids asks before meanwhile waiting []) =
      { s with
        base, lastUpdateId := L, messages := s.messages ++ before ++ meanwhile ++ waiting
        snapshot := Function.update s.snapshot (reg.getCurrencyPair inst) true } := by
  have publishes : ∀ s' : ConnectionMD, s'.base = s.base →
      s'.step reg (.snapshotPublished inst bids asks) = { s' with base } := by
    intro s' same
    rw [← same] at published
    rw [step, publish_done published, Outcome.state_done]
  have cached : ∀ (s' : ConnectionMD) (jds : List DepthMessage), s'.snapshot = s.snapshot →
      run (step reg) s' (jds.map .depthUpdate) = { s' with messages := s'.messages ++ jds } := by
    intro s' jds same
    apply run_cached
    rw [same]
    exact unfinished
  unfold session
  simp only [run_append, run_cons, List.append_assoc, List.cons_append, List.map_nil, run_nil]
  rw [cached s before rfl, step, cached { s with lastUpdateId := L, messages := _ } meanwhile rfl,
    publishes { s with lastUpdateId := L, messages := _ } rfl,
    cached { s with base, lastUpdateId := L, messages := _ } waiting rfl, step]
  simp only [List.append_assoc]

end Follow

/-- The book shows the exchange at the id of the last message that was applied. -/
theorem book_follows_exchange (consistent : reg.Consistent) (texts : Texts reg quoted) (inst : String)
    (valid : (reg.getCurrencyPair inst).Valid) (bids asks : List Level)
    (listedBids : ∀ level ∈ bids, quoted (reg.getCurrencyPair inst) true level ∧ level.sized ≠ 0)
    (listedAsks : ∀ level ∈ asks, quoted (reg.getCurrencyPair inst) false level ∧ level.sized ≠ 0)
    (picture : PriceLevels.setSides (reg.getCurrencyPair inst) (fun _ _ _ => none) bids asks =
      exchange L)
    (before meanwhile waiting later : List DepthMessage)
    (genuine : ∀ jd ∈ before ++ meanwhile ++ waiting ++ later, Genuine reg quoted exchange jd)
    (id : ℤ) (stale : Bool)
    (joined : Along (step reg) (AllJoin reg) { lastUpdateId := id, stale }
      (session inst L bids asks before meanwhile waiting later)) :
    let s := run (step reg) { lastUpdateId := id, stale }
      (session inst L bids asks before meanwhile waiting later)
    ∀ cp : CurrencyPair, cp.Valid → ∀ bid,
      Shows reg cp (exchange (s.shownId L) cp bid) (s.base.orderBook.quotes cp bid) := by
  have whole : ConnectionBaseMD.GoesThroughSides reg {} bids asks inst :=
    ⟨goesThrough_of_sized true fun level member => (listedBids level member).2,
      fun _ _ => goesThrough_of_sized false fun level member => (listedAsks level member).2⟩
  obtain ⟨base, published, refines⟩ := publishSides_refines consistent texts valid
    (fun level member => (listedBids level member).1)
    (fun level member => (listedAsks level member).1) whole refines_empty
  rw [picture] at refines
  set finished : ConnectionMD :=
    { base, stale, lastUpdateId := L, messages := before ++ meanwhile ++ waiting
      snapshot := Function.update (fun _ => false) (reg.getCurrencyPair inst) true } with finished_def
  have split : session inst L bids asks before meanwhile waiting later =
      session inst L bids asks before meanwhile waiting [] ++ later.map .depthUpdate := by
    simp [session]
  have reached : run (step reg) { lastUpdateId := id, stale }
      (session inst L bids asks before meanwhile waiting []) = finished := by
    have run := run_session (s := { lastUpdateId := id, stale }) (L := L) (fun _ => rfl) published
      before meanwhile waiting
    exact run
  rw [split] at joined ⊢
  rw [along_append, reached] at joined
  have follows : finished.Follows reg quoted exchange L := by
    refine ⟨refines, rfl, ?_⟩
    intro jd member
    exact genuine jd (List.mem_append_left later member)
  have after := follows_updates consistent texts
    (fun jd member => genuine jd (List.mem_append_right _ member)) follows joined.2
  intro s cp cpValid bid
  have last : s = run (step reg) finished (later.map .depthUpdate) := by
    rw [← reached, ← run_append]
  rw [last]
  exact shows_of_refines consistent (sent_coherent texts) (sent_fits texts) after.refines cpValid
    bid

def oneBid (id : ℤ) : PriceLevels := fun cp bid price =>
  if coins.getCurrencyPair "BTC/USD" = cp ∧ true = bid ∧ 100 = price then
    some (if id ≤ 100 then 4 else 5)
  else none

def atHundred (cp : CurrencyPair) (_ : Bool) (level : Level) : Prop :=
  cp = ⟨⟨71⟩, Currency.usd⟩ ∧ (level = ⟨"100", "4"⟩ ∨ level = ⟨"100", "5"⟩)

theorem atHundred_texts : Texts coins atHundred where
  numeric := by
    rintro cp bid level ⟨-, rfl | rfl⟩ <;> decide +kernel
  plain := by
    rintro cp bid level ⟨-, rfl | rfl⟩ <;> decide
  coherent := by
    rintro cp bid level level' ⟨-, rfl | rfl⟩ ⟨-, rfl | rfl⟩ <;> exact iff_of_true rfl rfl
  fits := by
    rintro cp bid level ⟨rfl, rfl | rfl⟩ <;> decide +kernel

theorem oneBid_genuine (U : ℤ) (later : ℕ) (above : 101 ≤ U) :
    Genuine coins atHundred oneBid (bidUpdate "BTC/USD" U later) := by
  have priced : (Level.mk "100" "5").priced = 100 := by decide +kernel
  have sized : (Level.mk "100" "5").sized = 5 := by decide +kernel
  have pair : coins.getCurrencyPair "BTC/USD" = ⟨⟨71⟩, Currency.usd⟩ := by decide +kernel
  have valid : (coins.getCurrencyPair "BTC/USD").Valid := by decide +kernel
  refine ⟨valid, ?_, ?_, ?_⟩
  · intro level member
    exact ⟨pair, .inr (List.mem_singleton.mp member)⟩
  · intro level member
    contradiction
  · intro id _ _
    have after : ¬ U + later ≤ 100 := by omega
    funext cp bid price
    change PriceLevels.setLevel (coins.getCurrencyPair "BTC/USD") true (oneBid id) ⟨"100", "5"⟩
      cp bid price = oneBid (U + later) cp bid price
    unfold PriceLevels.setLevel oneBid
    rw [priced, sized, if_neg after]
    split_ifs with here gone
    · exact absurd gone (by norm_num)
    · rfl
    · rfl

theorem book_follows_oneBid :
    let s := run (step coins) { lastUpdateId := 0, stale := true }
      (session "BTC/USD" 100 [⟨"100", "4"⟩] [] [] [] [bidUpdate "BTC/USD" 101 1]
        [bidUpdate "BTC/USD" 102 1])
    Shows coins ⟨⟨71⟩, Currency.usd⟩ (oneBid (s.shownId 100) ⟨⟨71⟩, Currency.usd⟩ true)
      (s.base.orderBook.quotes ⟨⟨71⟩, Currency.usd⟩ true) := by
  have priced : (Level.mk "100" "4").priced = 100 := by decide +kernel
  have sized : (Level.mk "100" "4").sized = 4 := by decide +kernel
  refine book_follows_exchange coins atHundred oneBid 100 coins_consistent atHundred_texts
    "BTC/USD" (by decide +kernel) _ _ ?_ ?_ ?_ _ _ _ _ ?_ 0 true (by decide +kernel) _ (by decide)
    true
  · intro level member
    obtain rfl := List.mem_singleton.mp member
    exact ⟨⟨by decide +kernel, .inl rfl⟩, by rw [sized]; norm_num⟩
  · intro level member
    contradiction
  · funext cp bid price
    change PriceLevels.setLevel (coins.getCurrencyPair "BTC/USD") true (fun _ _ _ => none)
      ⟨"100", "4"⟩ cp bid price = oneBid 100 cp bid price
    unfold PriceLevels.setLevel oneBid
    have kept : (4 : ℚ) ≠ 0 := by norm_num
    rw [priced, sized, if_pos le_rfl, if_neg kept]
  · intro jd member
    rcases List.mem_cons.mp member with rfl | member
    · exact oneBid_genuine 101 1 le_rfl
    · obtain rfl := List.mem_singleton.mp member
      exact oneBid_genuine 102 1 (by decide)

end SpotGridBot.Binance.ConnectionMD
