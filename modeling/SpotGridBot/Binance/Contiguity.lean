import SpotGridBot.Binance.ConnectionMD
import SpotGridBot.Lib.Coverage

namespace SpotGridBot.Binance.ConnectionMD
open Utils Feed Runs Coverage

variable (reg : Registry) (L : ℤ) (s : ConnectionMD)

def Contiguous : Prop := Gapless DepthMessage.U DepthMessage.u L s.applied

/-- The end of what was applied: `DepthUpdate` keeps the number behind it, `Snapshot` its own id. -/
def frontier : ℤ := if s.applied = [] then s.lastUpdateId else s.lastUpdateId - 1

structure UpToFrontier : Prop where
  start : L ≤ s.frontier
  covers : Covers DepthMessage.U DepthMessage.u L s.frontier s.applied
  ends : ∀ jd ∈ s.applied, jd.u ≤ s.frontier
  contiguous : s.Contiguous L

def Skips (jd : DepthMessage) : Prop :=
  s.Applies jd ∧ s.applied ≠ [] ∧ jd.U = s.lastUpdateId + 1

theorem upToFrontier_next (jd : DepthMessage) (inv : s.UpToFrontier L) (joined : ¬ s.Skips jd) :
    (s.next reg jd).UpToFrontier L := by
  rcases s.next_cases reg jd with ⟨-, next⟩ | ⟨-, -, next⟩ | ⟨applies, base, next⟩
  · rw [next]
    exact inv
  · rw [next]
    exact ⟨inv.start, inv.covers, inv.ends, inv.contiguous⟩
  · obtain ⟨starts, reaches⟩ := applies.2
    have joins : jd.U ≤ s.frontier + 1 ∧ s.frontier ≤ jd.u := by
      unfold frontier
      by_cases first : s.applied = []
      · simp only [first, if_true]
        exact ⟨starts, reaches⟩
      · have noSkip : jd.U ≠ s.lastUpdateId + 1 := fun skips => joined ⟨applies, first, skips⟩
        simp only [first, if_false]
        omega
    have frontier : (s.next reg jd).frontier = jd.u := by
      rw [next]
      simp [ConnectionMD.frontier]
    have covers := inv.covers.concat joins.1
    have applied : (s.next reg jd).applied = s.applied ++ [jd] := by rw [next]
    constructor
    · rw [frontier]
      exact inv.start.trans joins.2
    · rw [frontier, applied]
      exact covers
    · rw [frontier, applied]
      intro jd' member
      rcases List.mem_append.mp member with old | new
      · exact (inv.ends jd' old).trans joins.2
      · obtain rfl := List.mem_singleton.mp new
        exact le_rfl
    · rw [Contiguous, applied]
      exact gapless_concat.mpr ⟨inv.contiguous, covers⟩

theorem not_contiguous_next (jd : DepthMessage) (inv : s.UpToFrontier L) (skips : s.Skips jd) :
    ¬ (s.next reg jd).Contiguous L := by
  obtain ⟨applies, later, skips⟩ := skips
  rcases s.next_cases reg jd with ⟨drops, -⟩ | ⟨-, outOfRange, -⟩ | ⟨-, base, next⟩
  · exact absurd drops applies.1
  · exact absurd applies.2 outOfRange
  · have frontier : s.frontier = s.lastUpdateId - 1 := by simp [frontier, later]
    have ordered := jd.ordered
    intro contiguous
    rw [Contiguous, next] at contiguous
    have covers := (gapless_concat.mp contiguous).2
    exact not_covers_concat inv.ends inv.start (by omega) (by omega) covers

theorem upToFrontier_run (jds : List DepthMessage) (inv : s.UpToFrontier L)
    (joined : Along (next reg) (fun s jd => ¬ s.Skips jd) s jds) :
    (run (next reg) s jds).UpToFrontier L :=
  (always_of_invariant (fun s jd joined inv => s.upToFrontier_next reg L jd inv joined)
    inv joined).last

theorem applied_prefix_run (jds : List DepthMessage) :
    s.applied <+: (run (next reg) s jds).applied := by
  induction jds generalizing s with
  | nil => exact List.prefix_rfl
  | cons jd jds ih =>
      have first : s.applied <+: (s.next reg jd).applied := by
        rw [next_applied]
        exact List.prefix_append _ _
      exact first.trans (ih (s.next reg jd))

theorem not_contiguous_run (jds : List DepthMessage) (inv : s.UpToFrontier L)
    (skipped : ¬ Along (next reg) (fun s jd => ¬ s.Skips jd) s jds) :
    ¬ (run (next reg) s jds).Contiguous L := by
  have anyMessage : Along (next reg) (fun _ _ => True) s jds :=
    along_of_forall (fun _ _ => trivial) s
  have exactGuard := Runs.always_iff_along
    (fun s jd _ inv joined => s.upToFrontier_next reg L jd inv joined)
    (fun s inv => inv.contiguous)
    (fun s jd _ inv skips => s.not_contiguous_next reg L jd inv (not_not.mp skips)) inv anyMessage
  intro contiguous
  apply skipped
  rw [← exactGuard, always_iff_prefixes]
  rintro earlier ⟨later, rfl⟩
  rw [run_append] at contiguous
  exact contiguous.of_prefix (applied_prefix_run reg _ later)

variable {L s} in
theorem UpToFrontier.congr {s' : ConnectionMD} (inv : s.UpToFrontier L)
    (applied : s'.applied = s.applied) (lastUpdateId : s'.lastUpdateId = s.lastUpdateId) :
    s'.UpToFrontier L := by
  have frontier : s'.frontier = s.frontier := by
    unfold frontier
    rw [applied, lastUpdateId]
  constructor
  · rw [frontier]
    exact inv.start
  · rw [frontier, applied]
    exact inv.covers
  · rw [frontier, applied]
    exact inv.ends
  · rw [Contiguous, applied]
    exact inv.contiguous

def NoneSkips : Event → Prop
  | .depthUpdate jd => s.snapshot (reg.getCurrencyPair jd.s) = true →
      Along (next reg) (fun s jd => ¬ s.Skips jd) s (s.messages ++ [jd])
  | _ => True

instance (jd : DepthMessage) : Decidable (s.Skips jd) :=
  inferInstanceAs (Decidable (s.Applies jd ∧ s.applied ≠ [] ∧ jd.U = s.lastUpdateId + 1))

instance (e : Event) : Decidable (s.NoneSkips reg e) := by
  cases e with
  | depthUpdate jd =>
      exact inferInstanceAs (Decidable (s.snapshot (reg.getCurrencyPair jd.s) = true →
        Along (next reg) (fun s jd => ¬ s.Skips jd) s (s.messages ++ [jd])))
  | _ => exact .isTrue trivial

def Event.isSnapshotReceived : Event → Bool
  | .snapshotReceived _ _ => true
  | _ => false

theorem upToFrontier_step (e : Event) (inv : s.UpToFrontier L)
    (same : e.isSnapshotReceived = false) (joined : s.NoneSkips reg e) :
    (s.step reg e).UpToFrontier L := by
  cases e with
  | snapshotReceived inst lastUpdateId => contradiction
  | snapshotPublished inst bids asks =>
      obtain ⟨base, published⟩ := s.publish_state reg bids asks inst
      rw [step, published]
      exact inv.congr rfl rfl
  | snapshotFinished inst => exact inv.congr rfl rfl
  | depthUpdate jd =>
      rw [step_depthUpdate]
      split
      next ready => exact (s.upToFrontier_run reg L _ inv (joined ready)).congr rfl rfl
      next => exact inv.congr rfl rfl

theorem not_contiguous_step (e : Event) (inv : s.UpToFrontier L) (skipped : ¬ s.NoneSkips reg e) :
    ¬ (s.step reg e).Contiguous L := by
  cases e with
  | depthUpdate jd =>
      obtain ⟨ready, skipped⟩ := Classical.not_imp.mp skipped
      rw [step_depthUpdate, if_pos ready]
      exact s.not_contiguous_run reg L _ inv skipped
  | _ => exact absurd trivial skipped

/-- After a snapshot the applied messages are without a gap exactly as long as none of them, behind
the first, starts two behind the end of the one before it. -/
theorem contiguous_iff_noneSkips (s : ConnectionMD) (events : List Event) (fresh : s.applied = [])
    (sameSnapshot : ∀ e ∈ events, e.isSnapshotReceived = false) :
    Always (step reg) (Contiguous s.lastUpdateId) s events ↔
      Along (step reg) (NoneSkips reg) s events := by
  have frontier : s.frontier = s.lastUpdateId := if_pos fresh
  have initial : s.UpToFrontier s.lastUpdateId := by
    constructor
    · exact frontier.ge
    · rw [frontier]
      exact covers_self
    · simp [fresh]
    · rw [Contiguous, fresh]
      exact gapless_nil _ _
  exact Runs.always_iff_along
    (fun s' e same inv joined => s'.upToFrontier_step reg s.lastUpdateId e inv same joined)
    (fun s' inv => inv.contiguous)
    (fun s' e _ inv skipped => s'.not_contiguous_step reg s.lastUpdateId e inv skipped)
    initial (along_of_forall sameSnapshot s)

def ready : ConnectionMD := { lastUpdateId := 100, snapshot := fun _ => true }

def to105 : DepthMessage := bidUpdate "BTC/USD" 101 4
def from104 : DepthMessage := bidUpdate "BTC/USD" 104 6
def from107 : DepthMessage := bidUpdate "BTC/USD" 107 3

theorem contiguous_overlapping :
    Always (step coins) (Contiguous 100) ready [.depthUpdate to105, .depthUpdate from104] :=
  (contiguous_iff_noneSkips coins ready _ rfl (by decide)).mpr (by decide +kernel)

theorem skipsOne_notContiguous :
    ¬ Always (step coins) (Contiguous 100) ready [.depthUpdate to105, .depthUpdate from107] := by
  intro always
  have contiguous := always.last
  have applied : (run (step coins) ready [.depthUpdate to105, .depthUpdate from107]).applied =
      [to105, from107] := by
    decide +kernel
  rw [Contiguous, applied] at contiguous
  obtain ⟨jd, member, starts, ends⟩ :=
    contiguous [to105] from107 List.prefix_rfl 106 (by decide) (by decide)
  rcases List.mem_cons.mp member with rfl | member
  · exact absurd ends (by decide)
  · obtain rfl := List.mem_singleton.mp member
    exact absurd starts (by decide)

end SpotGridBot.Binance.ConnectionMD
