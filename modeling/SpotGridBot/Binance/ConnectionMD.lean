import SpotGridBot.Feed.ConnectionBaseMD
import SpotGridBot.Lib.Flushing

/-!
# The depth stream of Binance

The handler of `depthUpdate` messages and the snapshots, which another thread takes: an event is one
message handled, or one of the three moments at which a snapshot touches the connection.
-/

namespace SpotGridBot.Binance
open Utils Feed Runs

/-- A `depthUpdate` document, its numerals and its range well formed. -/
structure DepthMessage where
  s : String
  U : ℤ
  u : ℤ
  bids : List Level
  asks : List Level
  ordered : U ≤ u
  numeric : ∀ level ∈ bids ++ asks, level.Numeric
deriving DecidableEq

structure ConnectionMD where
  base : ConnectionBaseMD := {}
  lastUpdateId : ℤ
  -- The static of `DepthUpdate`.
  stale : Bool := true
  -- `m_snapshot`, for the subscribed pairs.
  snapshot : CurrencyPair → Bool := fun _ => false
  messages : List DepthMessage := []
  -- What `DepthUpdate` applied to the books, oldest first.
  applied : List DepthMessage := []

namespace ConnectionMD
variable (reg : Registry) (s : ConnectionMD)

def publish (bids asks : List Level) (instrument : String) : Outcome ConnectionMD :=
  (s.base.publishSides reg bids asks instrument).map fun base => { s with base }

def depthUpdate (jd : DepthMessage) : Outcome ConnectionMD :=
  if s.stale ∧ jd.u ≤ s.lastUpdateId then .done s
  else
    let s := { s with stale := false }
    if jd.U ≤ s.lastUpdateId + 1 ∧ jd.u ≥ s.lastUpdateId then
      (s.publish reg jd.bids jd.asks jd.s).bind fun s =>
        .done { s with lastUpdateId := jd.u + 1, applied := s.applied ++ [jd] }
    else .done s

def flush : Outcome ConnectionMD :=
  Outcome.forEach (fun s jd => (s.depthUpdate reg jd).bind fun s =>
    .done { s with messages := s.messages.tail }) s s.messages

def onDepthUpdate (jd : DepthMessage) : Outcome ConnectionMD :=
  if s.snapshot (reg.getCurrencyPair jd.s) then
    (s.flush reg).bind fun s => s.depthUpdate reg jd
  else .done { s with messages := s.messages ++ [jd] }

inductive Event where
  | snapshotReceived (inst : String) (lastUpdateId : ℤ)
  | snapshotPublished (inst : String) (bids asks : List Level)
  | snapshotFinished (inst : String)
  | depthUpdate (jd : DepthMessage)

/-- The worker that runs the handlers swallows what they throw. -/
def step (s : ConnectionMD) : Event → ConnectionMD
  | .snapshotReceived _ lastUpdateId => { s with lastUpdateId }
  | .snapshotPublished inst bids asks => (s.publish reg bids asks inst).state
  | .snapshotFinished inst =>
      { s with snapshot := Function.update s.snapshot (reg.getCurrencyPair inst) true }
  | .depthUpdate jd => (s.onDepthUpdate reg jd).state

def Drops (jd : DepthMessage) : Prop := s.stale = true ∧ jd.u ≤ s.lastUpdateId

def InRange (jd : DepthMessage) : Prop :=
  jd.U ≤ s.lastUpdateId + 1 ∧ s.lastUpdateId ≤ jd.u

def Applies (jd : DepthMessage) : Prop := ¬ s.Drops jd ∧ s.InRange jd

instance (jd : DepthMessage) : Decidable (s.Drops jd) :=
  inferInstanceAs (Decidable (s.stale = true ∧ jd.u ≤ s.lastUpdateId))
instance (jd : DepthMessage) : Decidable (s.InRange jd) :=
  inferInstanceAs (Decidable (jd.U ≤ s.lastUpdateId + 1 ∧ s.lastUpdateId ≤ jd.u))
instance (jd : DepthMessage) : Decidable (s.Applies jd) :=
  inferInstanceAs (Decidable (¬ s.Drops jd ∧ s.InRange jd))

def next (jd : DepthMessage) : ConnectionMD := (s.depthUpdate reg jd).state

theorem depthUpdate_cases (jd : DepthMessage) :
    (s.Drops jd ∧ s.depthUpdate reg jd = .done s) ∨
    (¬ s.Drops jd ∧ ¬ s.InRange jd ∧ s.depthUpdate reg jd = .done { s with stale := false }) ∨
    (s.Applies jd ∧ ∃ base, s.depthUpdate reg jd = .done
      { s with base, stale := false, lastUpdateId := jd.u + 1, applied := s.applied ++ [jd] }) := by
  unfold depthUpdate
  by_cases drops : s.Drops jd
  · exact .inl ⟨drops, if_pos drops⟩
  · have kept : ¬ (s.stale = true ∧ jd.u ≤ s.lastUpdateId) := drops
    rw [if_neg kept]
    by_cases inRange : s.InRange jd
    · obtain ⟨base, published⟩ := s.base.publishSides_done reg jd.numeric jd.s
      have within : jd.U ≤ s.lastUpdateId + 1 ∧ jd.u ≥ s.lastUpdateId := inRange
      refine .inr (.inr ⟨⟨drops, inRange⟩, base, ?_⟩)
      simp only [within, and_self, if_true, publish, published, Outcome.map, Outcome.bind_done]
    · exact .inr (.inl ⟨drops, inRange, if_neg inRange⟩)

theorem depthUpdate_done (jd : DepthMessage) : s.depthUpdate reg jd = .done (s.next reg jd) := by
  unfold next
  rcases s.depthUpdate_cases reg jd with ⟨-, done⟩ | ⟨-, -, done⟩ | ⟨-, base, done⟩
  · rw [done, Outcome.state_done]
  · rw [done, Outcome.state_done]
  · rw [done, Outcome.state_done]

theorem next_cases (jd : DepthMessage) :
    (s.Drops jd ∧ s.next reg jd = s) ∨
    (¬ s.Drops jd ∧ ¬ s.InRange jd ∧ s.next reg jd = { s with stale := false }) ∨
    (s.Applies jd ∧ ∃ base, s.next reg jd =
      { s with base, stale := false, lastUpdateId := jd.u + 1, applied := s.applied ++ [jd] }) := by
  unfold next
  rcases s.depthUpdate_cases reg jd with
    ⟨drops, done⟩ | ⟨kept, outOfRange, done⟩ | ⟨applies, base, done⟩
  · exact .inl ⟨drops, by rw [done, Outcome.state_done]⟩
  · exact .inr (.inl ⟨kept, outOfRange, by rw [done, Outcome.state_done]⟩)
  · exact .inr (.inr ⟨applies, base, by rw [done, Outcome.state_done]⟩)

theorem next_lastUpdateId (jd : DepthMessage) :
    (s.next reg jd).lastUpdateId = if s.Applies jd then jd.u + 1 else s.lastUpdateId := by
  rcases s.next_cases reg jd with ⟨drops, next⟩ | ⟨-, outOfRange, next⟩ | ⟨applies, base, next⟩
  · rw [next, if_neg fun applies => applies.1 drops]
  · rw [next, if_neg fun applies => outOfRange applies.2]
  · rw [next, if_pos applies]

theorem next_stale (jd : DepthMessage) :
    (s.next reg jd).stale = if s.Drops jd then true else false := by
  rcases s.next_cases reg jd with ⟨drops, next⟩ | ⟨kept, -, next⟩ | ⟨applies, base, next⟩
  · rw [next, if_pos drops, drops.1]
  · rw [next, if_neg kept]
  · rw [next, if_neg applies.1]

theorem next_applied (jd : DepthMessage) :
    (s.next reg jd).applied = s.applied ++ if s.Applies jd then [jd] else [] := by
  rcases s.next_cases reg jd with ⟨drops, next⟩ | ⟨-, outOfRange, next⟩ | ⟨applies, base, next⟩
  · rw [next, if_neg fun applies => applies.1 drops, List.append_nil]
  · rw [next, if_neg fun applies => outOfRange applies.2, List.append_nil]
  · rw [next, if_pos applies]

@[simp] theorem next_messages (jd : DepthMessage) : (s.next reg jd).messages = s.messages := by
  rcases s.next_cases reg jd with ⟨-, next⟩ | ⟨-, -, next⟩ | ⟨-, base, next⟩
  · rw [next]
  · rw [next]
  · rw [next]

@[simp] theorem next_snapshot (jd : DepthMessage) : (s.next reg jd).snapshot = s.snapshot := by
  rcases s.next_cases reg jd with ⟨-, next⟩ | ⟨-, -, next⟩ | ⟨-, base, next⟩
  · rw [next]
  · rw [next]
  · rw [next]

theorem next_withMessages (messages : List DepthMessage) (jd : DepthMessage) :
    ({ s with messages } : ConnectionMD).next reg jd = { s.next reg jd with messages } := by
  unfold next depthUpdate publish
  dsimp only
  split_ifs
  · rfl
  · cases s.base.publishSides reg jd.bids jd.asks jd.s with
    | _ => rfl
  · rfl

theorem unread : Flushing.Unread (next reg) messages fun s messages => { s with messages } where
  set_set _ _ _ := rfl
  set_get _ := rfl
  get_set _ _ := rfl
  frame s messages jd := s.next_withMessages reg messages jd

theorem flush_done : s.flush reg = .done { run (next reg) s s.messages with messages := [] } :=
  (unread reg).flush (fun s jd => s.depthUpdate_done reg jd) s

theorem onDepthUpdate_done (jd : DepthMessage) :
    s.onDepthUpdate reg jd = .done
      (if s.snapshot (reg.getCurrencyPair jd.s) then
        { run (next reg) s (s.messages ++ [jd]) with messages := [] }
      else { s with messages := s.messages ++ [jd] }) := by
  unfold onDepthUpdate
  cases s.snapshot (reg.getCurrencyPair jd.s) with
  | false => rfl
  | true =>
      simp only [if_true]
      rw [flush_done, Outcome.bind_done, depthUpdate_done, next_withMessages, run_append]
      rfl

@[simp] theorem step_depthUpdate (jd : DepthMessage) :
    s.step reg (.depthUpdate jd) =
      if s.snapshot (reg.getCurrencyPair jd.s) then
        { run (next reg) s (s.messages ++ [jd]) with messages := [] }
      else { s with messages := s.messages ++ [jd] } := by
  rw [step, onDepthUpdate_done, Outcome.state_done]

theorem publish_state (bids asks : List Level) (instrument : String) :
    ∃ base, (s.publish reg bids asks instrument).state = { s with base } := by
  exact ⟨_, Outcome.state_map _ _⟩

end ConnectionMD

def bidUpdate (s : String) (U : ℤ) (later : ℕ) : DepthMessage where
  s := s
  U := U
  u := U + later
  bids := [⟨"100", "5"⟩]
  asks := []
  ordered := Int.le_add_of_nonneg_right (Int.natCast_nonneg later)
  numeric := by decide +kernel

end SpotGridBot.Binance
