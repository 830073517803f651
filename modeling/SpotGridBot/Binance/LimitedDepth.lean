import SpotGridBot.Feed.ConnectionBaseMD
import SpotGridBot.Lib.Flushing

namespace SpotGridBot.Binance
open Utils Feed Runs

structure DepthNMessage where
  s : String
  lastUpdateId : ℤ
  bids : List Level
  asks : List Level
  numeric : ∀ level ∈ bids ++ asks, level.Numeric

structure LimitedDepth where
  base : ConnectionBaseMD := {}
  lastUpdateId : ℤ
  -- `m_snapshot`, for the subscribed pairs.
  snapshot : CurrencyPair → Bool := fun _ => false
  messages : List DepthNMessage := []
  -- What `DepthNUpdate` applied to the books, oldest first.
  applied : List DepthNMessage := []

namespace LimitedDepth
variable (reg : Registry) (s : LimitedDepth)

def publish (bids asks : List Level) (instrument : String) : Outcome LimitedDepth :=
  (s.base.publishSides reg bids asks instrument).map fun base => { s with base }

def depthNUpdate (jd : DepthNMessage) : Outcome LimitedDepth :=
  if s.lastUpdateId ≤ jd.lastUpdateId then
    (s.publish reg jd.bids jd.asks jd.s).bind fun s =>
      .done { s with applied := s.applied ++ [jd] }
  else .done s

def flush : Outcome LimitedDepth :=
  Outcome.forEach (fun s jd => (s.depthNUpdate reg jd).bind fun s =>
    .done { s with messages := s.messages.tail }) s s.messages

def onDepthNUpdate (jd : DepthNMessage) : Outcome LimitedDepth :=
  if s.snapshot (reg.getCurrencyPair jd.s) then
    (s.flush reg).bind fun s => s.depthNUpdate reg jd
  else .done { s with messages := s.messages ++ [jd] }

inductive Event where
  | snapshotReceived (inst : String) (lastUpdateId : ℤ)
  | snapshotPublished (inst : String) (bids asks : List Level)
  | snapshotFinished (inst : String)
  | depthNUpdate (jd : DepthNMessage)

def step (s : LimitedDepth) : Event → LimitedDepth
  | .snapshotReceived _ lastUpdateId => { s with lastUpdateId }
  | .snapshotPublished inst bids asks => (s.publish reg bids asks inst).state
  | .snapshotFinished inst =>
      { s with snapshot := Function.update s.snapshot (reg.getCurrencyPair inst) true }
  | .depthNUpdate jd => (s.onDepthNUpdate reg jd).state

def Monotone : Prop := (s.applied.map DepthNMessage.lastUpdateId).Pairwise (· ≤ ·)

/-- The messages in the order in which they come to `DepthNUpdate`, each with the id that the last
snapshot before it has stored. They wait until a message comes whose pair has its snapshot. -/
def arrivals : ℤ → (CurrencyPair → Bool) → List DepthNMessage → List Event →
    List (ℤ × DepthNMessage)
  | _, _, _, [] => []
  | _, finished, waiting, .snapshotReceived _ id :: events => arrivals id finished waiting events
  | stored, finished, waiting, .snapshotPublished _ _ _ :: events =>
      arrivals stored finished waiting events
  | stored, finished, waiting, .snapshotFinished inst :: events =>
      arrivals stored (Function.update finished (reg.getCurrencyPair inst) true) waiting events
  | stored, finished, waiting, .depthNUpdate jd :: events =>
      if finished (reg.getCurrencyPair jd.s) then
        (waiting ++ [jd]).map (Prod.mk stored) ++ arrivals stored finished [] events
      else arrivals stored finished (waiting ++ [jd]) events

def InOrder (earlier later : ℤ × DepthNMessage) : Prop :=
  earlier.1 ≤ earlier.2.lastUpdateId → later.1 ≤ later.2.lastUpdateId →
    earlier.2.lastUpdateId ≤ later.2.lastUpdateId

def next (jd : DepthNMessage) : LimitedDepth := (s.depthNUpdate reg jd).state

theorem depthNUpdate_cases (jd : DepthNMessage) :
    (jd.lastUpdateId < s.lastUpdateId ∧ s.depthNUpdate reg jd = .done s) ∨
    (s.lastUpdateId ≤ jd.lastUpdateId ∧ ∃ base, s.depthNUpdate reg jd =
      .done { s with base, applied := s.applied ++ [jd] }) := by
  unfold depthNUpdate
  by_cases fresh : s.lastUpdateId ≤ jd.lastUpdateId
  · obtain ⟨base, published⟩ := s.base.publishSides_done reg jd.numeric jd.s
    refine .inr ⟨fresh, base, ?_⟩
    simp only [fresh, if_true, publish, published, Outcome.map, Outcome.bind_done]
  · exact .inl ⟨not_le.mp fresh, if_neg fresh⟩

theorem next_cases (jd : DepthNMessage) :
    (jd.lastUpdateId < s.lastUpdateId ∧ s.next reg jd = s) ∨
    (s.lastUpdateId ≤ jd.lastUpdateId ∧ ∃ base, s.next reg jd =
      { s with base, applied := s.applied ++ [jd] }) := by
  unfold next
  rcases s.depthNUpdate_cases reg jd with ⟨old, done⟩ | ⟨fresh, base, done⟩
  · exact .inl ⟨old, by rw [done, Outcome.state_done]⟩
  · exact .inr ⟨fresh, base, by rw [done, Outcome.state_done]⟩

theorem depthNUpdate_done (jd : DepthNMessage) :
    s.depthNUpdate reg jd = .done (s.next reg jd) := by
  unfold next
  rcases s.depthNUpdate_cases reg jd with ⟨-, done⟩ | ⟨-, base, done⟩
  · rw [done, Outcome.state_done]
  · rw [done, Outcome.state_done]

theorem next_withMessages (messages : List DepthNMessage) (jd : DepthNMessage) :
    ({ s with messages } : LimitedDepth).next reg jd = { s.next reg jd with messages } := by
  unfold next depthNUpdate publish
  dsimp only
  split_ifs
  · cases s.base.publishSides reg jd.bids jd.asks jd.s with
    | _ => rfl
  · rfl

theorem unread : Flushing.Unread (next reg) messages fun s messages => { s with messages } where
  set_set _ _ _ := rfl
  set_get _ := rfl
  get_set _ _ := rfl
  frame s messages jd := s.next_withMessages reg messages jd

theorem flush_done : s.flush reg = .done { run (next reg) s s.messages with messages := [] } :=
  (unread reg).flush (fun s jd => s.depthNUpdate_done reg jd) s

theorem run_next (jds : List DepthNMessage) : ∃ base, run (next reg) s jds =
    { s with
      base, applied := s.applied ++ jds.filter fun jd => s.lastUpdateId ≤ jd.lastUpdateId } := by
  induction jds generalizing s with
  | nil => exact ⟨s.base, by simp⟩
  | cons jd jds ih =>
      obtain ⟨base, rest⟩ := ih (s.next reg jd)
      rw [run_cons, rest]
      rcases s.next_cases reg jd with ⟨old, next⟩ | ⟨fresh, base', next⟩
      · exact ⟨base, by rw [next, List.filter_cons_of_neg (by simpa using old)]⟩
      · exact ⟨base, by rw [next, List.filter_cons_of_pos (by simpa using fresh)]; simp⟩

theorem onDepthNUpdate_done (jd : DepthNMessage) :
    s.onDepthNUpdate reg jd = .done
      (if s.snapshot (reg.getCurrencyPair jd.s) then
        { run (next reg) s (s.messages ++ [jd]) with messages := [] }
      else { s with messages := s.messages ++ [jd] }) := by
  unfold onDepthNUpdate
  cases s.snapshot (reg.getCurrencyPair jd.s) with
  | false => rfl
  | true =>
      simp only [if_true]
      rw [flush_done, Outcome.bind_done, depthNUpdate_done, next_withMessages, run_append]
      rfl

theorem publish_state (bids asks : List Level) (instrument : String) :
    ∃ base, (s.publish reg bids asks instrument).state = { s with base } :=
  ⟨_, Outcome.state_map _ _⟩

def applicable (arrivals : List (ℤ × DepthNMessage)) : List DepthNMessage :=
  (arrivals.filter fun arrival => arrival.1 ≤ arrival.2.lastUpdateId).map Prod.snd

theorem applicable_append (earlier later : List (ℤ × DepthNMessage)) :
    applicable (earlier ++ later) = applicable earlier ++ applicable later := by
  simp [applicable]

theorem applicable_stored (stored : ℤ) (jds : List DepthNMessage) :
    applicable (jds.map (Prod.mk stored)) = jds.filter fun jd => stored ≤ jd.lastUpdateId := by
  simp [applicable, List.filter_map, Function.comp_def]

theorem applied_run (events : List Event) :
    (run (step reg) s events).applied = s.applied ++
      applicable (arrivals reg s.lastUpdateId s.snapshot s.messages events) := by
  induction events generalizing s with
  | nil => simp [arrivals, applicable]
  | cons event events ih =>
      rw [run_cons, ih]
      cases event with
      | snapshotReceived inst lastUpdateId => rfl
      | snapshotPublished inst bids asks =>
          obtain ⟨base, published⟩ := s.publish_state reg bids asks inst
          rw [step, published]
          rfl
      | snapshotFinished inst => rfl
      | depthNUpdate jd =>
          rw [step, onDepthNUpdate_done, Outcome.state_done, arrivals]
          split
          next finished =>
            obtain ⟨base, handled⟩ := s.run_next reg (s.messages ++ [jd])
            rw [handled, applicable_append, applicable_stored, List.append_assoc]
          next => rfl

theorem Monotone.of_prefix {s s' : LimitedDepth} (monotone : s'.Monotone)
    (earlier : s.applied <+: s'.applied) : s.Monotone :=
  List.Pairwise.sublist (earlier.map DepthNMessage.lastUpdateId).sublist monotone

theorem Monotone.of_step {s : LimitedDepth} {event : Event}
    (monotone : (s.step reg event).Monotone) : s.Monotone := by
  have grown := s.applied_run reg [event]
  rw [run_cons, run_nil] at grown
  exact monotone.of_prefix ⟨_, grown.symm⟩

theorem pairwise_applicable (arrivals : List (ℤ × DepthNMessage)) :
    ((applicable arrivals).map DepthNMessage.lastUpdateId).Pairwise (· ≤ ·) ↔
      arrivals.Pairwise InOrder := by
  rw [applicable, List.map_map, List.pairwise_map, List.pairwise_filter]
  simp only [decide_eq_true_eq]
  rfl

/-- Nothing in `DepthNUpdate` keeps an older picture out: what it applies is in order exactly if the
messages that come to it are. -/
theorem always_monotone_iff (lastUpdateId : ℤ) (events : List Event) :
    Always (step reg) Monotone ⟨{}, lastUpdateId, fun _ => false, [], []⟩ events ↔
      (arrivals reg lastUpdateId (fun _ => false) [] events).Pairwise InOrder := by
  have applied := applied_run reg ⟨{}, lastUpdateId, fun _ => false, [], []⟩ events
  rw [← pairwise_applicable]
  constructor
  · intro always
    have monotone := always.last
    rwa [Monotone, applied] at monotone
  · intro inOrder
    apply always_of_last fun s event => Monotone.of_step reg
    rw [Monotone, applied]
    exact inOrder

theorem numeric_bid : ∀ level ∈ [(⟨"100", "5"⟩ : Level)], level.Numeric :=
  List.forall_mem_singleton.mpr (by decide +kernel)

def picture (lastUpdateId : ℤ) : DepthNMessage where
  s := "BTCUSD"
  lastUpdateId
  bids := [⟨"100", "5"⟩]
  asks := []
  numeric := numeric_bid

def overtaken : List Event :=
  [.snapshotReceived "BTCUSD" 10, .snapshotPublished "BTCUSD" [] [], .snapshotFinished "BTCUSD",
    .depthNUpdate (picture 20), .depthNUpdate (picture 15)]

theorem overtaken_notMonotone :
    ¬ ∀ (reg : Registry) (lastUpdateId : ℤ) (events : List Event),
      Always (step reg) Monotone ⟨{}, lastUpdateId, fun _ => false, [], []⟩ events := by
  intro always
  have monotone := (always coins 0 overtaken).last
  have applied : (run (step coins) ⟨{}, 0, fun _ => false, [], []⟩ overtaken).applied.map
      DepthNMessage.lastUpdateId = [20, 15] := by decide +kernel
  rw [Monotone, applied] at monotone
  revert monotone
  decide

end LimitedDepth

end SpotGridBot.Binance
