import SpotGridBot.Binance.ConnectionMD
import SpotGridBot.Lib.Unwinding

namespace SpotGridBot.Binance
open Utils Feed Runs

def DepthMessage.isOf (reg : Registry) (cp : CurrencyPair) (jd : DepthMessage) : Bool :=
  reg.getCurrencyPair jd.s == cp

def ConnectionMD.Event.isOf (reg : Registry) (cp : CurrencyPair) : Event → Bool
  | snapshotReceived inst _ | snapshotPublished inst _ _ | snapshotFinished inst =>
      reg.getCurrencyPair inst == cp
  | depthUpdate jd => jd.isOf reg cp

namespace ConnectionMD
variable (reg : Registry) (cp : CurrencyPair) (s : ConnectionMD)

def appliedTo : List DepthMessage := s.applied.filter (DepthMessage.isOf reg cp)

def QuietMessage (jd : DepthMessage) : Prop :=
  jd.isOf reg cp = false → s.Drops jd ∨ (s.stale = false ∧ ¬ s.InRange jd)

def Quiet : Event → Prop
  | .snapshotReceived inst lastUpdateId =>
      reg.getCurrencyPair inst ≠ cp → lastUpdateId = s.lastUpdateId
  | .depthUpdate jd => s.snapshot (reg.getCurrencyPair jd.s) = true →
      Along (next reg) (QuietMessage reg cp) s (s.messages ++ [jd]) ∧
      (jd.isOf reg cp = false → ∀ cached ∈ s.messages, cached.isOf reg cp = false)
  | _ => True

structure Alike (s t : ConnectionMD) : Prop where
  lastUpdateId : s.lastUpdateId = t.lastUpdateId
  stale : s.stale = t.stale
  snapshot : s.snapshot cp = t.snapshot cp
  applied : s.appliedTo reg cp = t.appliedTo reg cp

variable {reg cp s} {t : ConnectionMD}

theorem Alike.applies_iff (alike : Alike reg cp s t) (jd : DepthMessage) :
    s.Applies jd ↔ t.Applies jd := by
  unfold Applies Drops InRange
  rw [alike.lastUpdateId, alike.stale]

theorem Alike.drops_iff (alike : Alike reg cp s t) (jd : DepthMessage) :
    s.Drops jd ↔ t.Drops jd := by
  unfold Drops
  rw [alike.lastUpdateId, alike.stale]

theorem Alike.next (alike : Alike reg cp s t) (jd : DepthMessage) :
    Alike reg cp (s.next reg jd) (t.next reg jd) := by
  constructor
  · rw [next_lastUpdateId, next_lastUpdateId, alike.lastUpdateId]
    simp only [alike.applies_iff]
  · rw [next_stale, next_stale]
    simp only [alike.drops_iff]
  · rw [next_snapshot, next_snapshot, alike.snapshot]
  · have applied := alike.applied
    unfold appliedTo at applied ⊢
    rw [next_applied, next_applied, List.filter_append, List.filter_append, applied]
    simp only [alike.applies_iff]

theorem Alike.next_quiet (alike : Alike reg cp s t) {jd : DepthMessage}
    (other : jd.isOf reg cp = false) (quiet : s.QuietMessage reg cp jd) :
    Alike reg cp (s.next reg jd) t := by
  have ignored := quiet other
  have idle : ¬ s.Applies jd := by
    rintro ⟨kept, inRange⟩
    rcases ignored with drops | ⟨-, outOfRange⟩
    · exact kept drops
    · exact outOfRange inRange
  have stale : (s.next reg jd).stale = s.stale := by
    rw [next_stale]
    rcases ignored with drops | ⟨fresh, -⟩
    · rw [if_pos drops, drops.1]
    · rw [if_neg (by simp [Drops, fresh]), fresh]
  constructor
  · rw [next_lastUpdateId, if_neg idle, alike.lastUpdateId]
  · rw [stale, alike.stale]
  · rw [next_snapshot, alike.snapshot]
  · unfold appliedTo
    rw [next_applied, if_neg idle, List.append_nil]
    exact alike.applied

theorem Alike.run (alike : Alike reg cp s t) {jds : List DepthMessage}
    (quiet : Along (ConnectionMD.next reg) (QuietMessage reg cp) s jds) :
    Alike reg cp (run (ConnectionMD.next reg) s jds)
      (run (ConnectionMD.next reg) t (jds.filter (DepthMessage.isOf reg cp))) :=
  run_filter (fun _ _ jd _ _ alike => alike.next jd)
    (fun _ _ _ other quiet alike => alike.next_quiet other quiet) alike quiet

structure Agree (reg : Registry) (cp : CurrencyPair) (s t : ConnectionMD) : Prop where
  alike : Alike reg cp s t
  messages : t.messages = s.messages.filter (DepthMessage.isOf reg cp)

theorem Alike.congr {s' t' : ConnectionMD} (alike : Alike reg cp s t)
    (left : s'.lastUpdateId = s.lastUpdateId ∧ s'.stale = s.stale ∧
      s'.snapshot cp = s.snapshot cp ∧ s'.applied = s.applied)
    (right : t'.lastUpdateId = t.lastUpdateId ∧ t'.stale = t.stale ∧
      t'.snapshot cp = t.snapshot cp ∧ t'.applied = t.applied) : Alike reg cp s' t' := by
  obtain ⟨last, stale, snapshot, applied⟩ := left
  obtain ⟨last', stale', snapshot', applied'⟩ := right
  constructor
  · rw [last, last', alike.lastUpdateId]
  · rw [stale, stale', alike.stale]
  · rw [snapshot, snapshot', alike.snapshot]
  · have same := alike.applied
    unfold appliedTo at same ⊢
    rw [applied, applied', same]

theorem agree_seen {e : Event} (own : e.isOf reg cp = true) (quiet : s.Quiet reg cp e)
    (agree : Agree reg cp s t) : Agree reg cp (s.step reg e) (t.step reg e) := by
  obtain ⟨alike, messages⟩ := agree
  cases e with
  | snapshotReceived inst lastUpdateId =>
      exact ⟨⟨rfl, alike.stale, alike.snapshot, alike.applied⟩, messages⟩
  | snapshotPublished inst bids asks =>
      obtain ⟨base, published⟩ := s.publish_state reg bids asks inst
      obtain ⟨base', published'⟩ := t.publish_state reg bids asks inst
      rw [step, step, published, published']
      exact ⟨alike.congr ⟨rfl, rfl, rfl, rfl⟩ ⟨rfl, rfl, rfl, rfl⟩, messages⟩
  | snapshotFinished inst =>
      obtain rfl : reg.getCurrencyPair inst = cp := by simpa [Event.isOf] using own
      exact ⟨⟨alike.lastUpdateId, alike.stale, by simp [step], alike.applied⟩, messages⟩
  | depthUpdate jd =>
      have pair : reg.getCurrencyPair jd.s = cp := by
        simpa [Event.isOf, DepthMessage.isOf] using own
      have filtered : (s.messages ++ [jd]).filter (DepthMessage.isOf reg cp) =
          t.messages ++ [jd] := by
        rw [List.filter_append, ← messages, List.filter_singleton]
        simp [DepthMessage.isOf, pair]
      rw [step_depthUpdate, step_depthUpdate, pair, ← alike.snapshot]
      split
      next ready =>
        have processed := alike.run (quiet (pair ▸ ready)).1
        rw [filtered] at processed
        exact ⟨processed.congr ⟨rfl, rfl, rfl, rfl⟩ ⟨rfl, rfl, rfl, rfl⟩, rfl⟩
      next => exact ⟨alike.congr ⟨rfl, rfl, rfl, rfl⟩ ⟨rfl, rfl, rfl, rfl⟩, filtered.symm⟩

theorem agree_unseen {e : Event} (other : e.isOf reg cp = false) (quiet : s.Quiet reg cp e)
    (agree : Agree reg cp s t) : Agree reg cp (s.step reg e) t := by
  obtain ⟨alike, messages⟩ := agree
  cases e with
  | snapshotReceived inst lastUpdateId =>
      have unchanged : lastUpdateId = s.lastUpdateId := quiet (by simpa [Event.isOf] using other)
      exact ⟨alike.congr ⟨unchanged, rfl, rfl, rfl⟩ ⟨rfl, rfl, rfl, rfl⟩, messages⟩
  | snapshotPublished inst bids asks =>
      obtain ⟨base, published⟩ := s.publish_state reg bids asks inst
      rw [step, published]
      exact ⟨alike.congr ⟨rfl, rfl, rfl, rfl⟩ ⟨rfl, rfl, rfl, rfl⟩, messages⟩
  | snapshotFinished inst =>
      have elsewhere : cp ≠ reg.getCurrencyPair inst := by
        rintro rfl
        simp [Event.isOf] at other
      exact ⟨alike.congr ⟨rfl, rfl, by simp [step, elsewhere], rfl⟩ ⟨rfl, rfl, rfl, rfl⟩, messages⟩
  | depthUpdate jd =>
      have hidden : jd.isOf reg cp = false := other
      rw [step_depthUpdate]
      split
      next ready =>
        obtain ⟨processed, cached⟩ := quiet ready
        have noneOwn : (s.messages ++ [jd]).filter (DepthMessage.isOf reg cp) = [] := by
          rw [List.filter_eq_nil_iff]
          intro jd' member
          rcases List.mem_append.mp member with old | new
          · simp [cached hidden jd' old]
          · obtain rfl := List.mem_singleton.mp new
            simp [hidden]
        have untouched := alike.run processed
        rw [noneOwn, run_nil] at untouched
        have noneCached : t.messages = [] := by
          rw [List.filter_append, List.append_eq_nil_iff] at noneOwn
          exact messages.trans noneOwn.1
        exact ⟨untouched.congr ⟨rfl, rfl, rfl, rfl⟩ ⟨rfl, rfl, rfl, rfl⟩, noneCached⟩
      next =>
        refine ⟨alike.congr ⟨rfl, rfl, rfl, rfl⟩ ⟨rfl, rfl, rfl, rfl⟩, ?_⟩
        rw [messages, List.filter_append]
        simp [hidden]

def started (base : ConnectionBaseMD) (lastUpdateId : ℤ) (stale : Bool) : ConnectionMD :=
  { base, lastUpdateId, stale }

/-- As long as the others are quiet, an instrument is served as if it were alone. -/
theorem appliedTo_eq_alone (reg : Registry) (cp : CurrencyPair) (base : ConnectionBaseMD)
    (lastUpdateId : ℤ) (stale : Bool) (events : List Event)
    (quiet : Along (step reg) (Quiet reg cp) (started base lastUpdateId stale) events) :
    ∀ earlier, earlier <+: events →
      (run (step reg) (started base lastUpdateId stale) earlier).appliedTo reg cp =
        (run (step reg) (started base lastUpdateId stale)
          (earlier.filter (Event.isOf reg cp))).appliedTo reg cp := by
  rintro earlier ⟨later, rfl⟩
  have initial : Agree reg cp (started base lastUpdateId stale) (started base lastUpdateId stale) :=
    ⟨⟨rfl, rfl, rfl, rfl⟩, rfl⟩
  have agree : Agree reg cp (run (step reg) (started base lastUpdateId stale) earlier)
      (run (step reg) (started base lastUpdateId stale) (earlier.filter (Event.isOf reg cp))) :=
    run_filter (fun _ _ e own quiet agree => agree_seen (e := e) own quiet agree)
      (fun _ _ e other quiet agree => agree_unseen (e := e) other quiet agree) initial
      (along_append.mp quiet).1
  exact agree.alike.applied

instance (jd : DepthMessage) : Decidable (s.QuietMessage reg cp jd) :=
  inferInstanceAs (Decidable
    (jd.isOf reg cp = false → s.Drops jd ∨ (s.stale = false ∧ ¬ s.InRange jd)))

instance : (e : Event) → Decidable (s.Quiet reg cp e)
  | .snapshotReceived inst lastUpdateId => inferInstanceAs (Decidable
      (reg.getCurrencyPair inst ≠ cp → lastUpdateId = s.lastUpdateId))
  | .depthUpdate jd => inferInstanceAs (Decidable (s.snapshot (reg.getCurrencyPair jd.s) = true →
      Along (next reg) (QuietMessage reg cp) s (s.messages ++ [jd]) ∧
      (jd.isOf reg cp = false → ∀ cached ∈ s.messages, cached.isOf reg cp = false)))
  | .snapshotPublished _ _ _ => .isTrue trivial
  | .snapshotFinished _ => .isTrue trivial

def btcUsd : CurrencyPair := coins.getCurrencyPair "BTC/USD"

def secondSnapshot : List Event :=
  [.snapshotReceived "BTC/USD" 100, .snapshotFinished "BTC/USD", .snapshotReceived "ETH/USD" 500,
    .depthUpdate (bidUpdate "BTC/USD" 101 4)]

def quietOther : List Event :=
  [.snapshotReceived "BTC/USD" 100, .snapshotFinished "BTC/USD",
    .depthUpdate (bidUpdate "BTC/USD" 101 4), .snapshotFinished "ETH/USD",
    .depthUpdate (bidUpdate "ETH/USD" 3 6),
    .depthUpdate (bidUpdate "BTC/USD" 106 4)]

theorem appliedTo_eq_alone_quietOther :
    (run (step coins) (started {} 0 true) quietOther).appliedTo coins btcUsd =
      (run (step coins) (started {} 0 true)
        (quietOther.filter (Event.isOf coins btcUsd))).appliedTo coins btcUsd :=
  appliedTo_eq_alone coins btcUsd {} 0 true quietOther (by decide +kernel) quietOther
    List.prefix_rfl

theorem secondSnapshot_interferes :
    (run (step coins) (started {} 0 true) secondSnapshot).appliedTo coins btcUsd ≠
      (run (step coins) (started {} 0 true)
        (secondSnapshot.filter (Event.isOf coins btcUsd))).appliedTo coins btcUsd := by
  decide +kernel

end ConnectionMD

end SpotGridBot.Binance
