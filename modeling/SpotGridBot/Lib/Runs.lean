import Mathlib.Data.List.Basic

/-!
# Runs of a deterministic system

A system is a step function on states; a run is a list of events. `Along` says that every step of
the run is taken in a state that allows it, `Always` that every state the run passes through has a
property. `always_iff_along` is the form in which a guard is shown to be exact: an invariant that
guarded steps keep, and a property that the first unguarded step breaks.
-/

namespace SpotGridBot.Runs

variable {σ ε : Type*} {step : σ → ε → σ} {ok guard : σ → ε → Prop} {P Inv : σ → Prop}

def run (step : σ → ε → σ) (s : σ) (events : List ε) : σ := events.foldl step s

@[simp] theorem run_nil (s : σ) : run step s [] = s := rfl

@[simp] theorem run_cons (s : σ) (e : ε) (es : List ε) :
    run step s (e :: es) = run step (step s e) es := rfl

@[simp] theorem run_append (s : σ) (es fs : List ε) :
    run step s (es ++ fs) = run step (run step s es) fs :=
  List.foldl_append

/-- Every step of the run is allowed by `ok` in the state it is taken from. -/
def Along (step : σ → ε → σ) (ok : σ → ε → Prop) : σ → List ε → Prop
  | _, [] => True
  | s, e :: es => ok s e ∧ Along step ok (step s e) es

/-- Every state the run passes through, the first and the last included, has `P`. -/
def Always (step : σ → ε → σ) (P : σ → Prop) : σ → List ε → Prop
  | s, [] => P s
  | s, e :: es => P s ∧ Always step P (step s e) es

instance decidableAlong [∀ s e, Decidable (ok s e)] :
    (s : σ) → (es : List ε) → Decidable (Along step ok s es)
  | _, [] => .isTrue trivial
  | s, e :: es =>
      have := decidableAlong (step s e) es
      inferInstanceAs (Decidable (ok s e ∧ Along step ok (step s e) es))

theorem always_iff_prefixes {s : σ} {es : List ε} :
    Always step P s es ↔ ∀ pre, pre <+: es → P (run step s pre) := by
  induction es generalizing s with
  | nil => simp [Always]
  | cons e es ih =>
      simp only [Always, ih]
      constructor
      · rintro ⟨here, later⟩ pre isPrefix
        cases pre with
        | nil => exact here
        | cons f pre =>
            obtain ⟨rfl, rest⟩ := List.cons_prefix_cons.mp isPrefix
            exact later pre rest
      · intro all
        exact ⟨all [] List.nil_prefix,
          fun pre isPrefix => all (e :: pre) (List.cons_prefix_cons.mpr ⟨rfl, isPrefix⟩)⟩

theorem Always.last {s : σ} {es : List ε} (always : Always step P s es) : P (run step s es) :=
  always_iff_prefixes.mp always es List.prefix_rfl

theorem along_append {s : σ} {es fs : List ε} :
    Along step ok s (es ++ fs) ↔ Along step ok s es ∧ Along step ok (run step s es) fs := by
  induction es generalizing s with
  | nil => simp [Along]
  | cons e es ih => simp [Along, ih, and_assoc]

theorem along_of_forall {p : ε → Prop} {es : List ε} (all : ∀ e ∈ es, p e) (s : σ) :
    Along step (fun _ e => p e) s es := by
  induction es generalizing s with
  | nil => trivial
  | cons e es ih =>
      exact ⟨all e List.mem_cons_self, ih (fun e member => all e (List.mem_cons_of_mem _ member)) _⟩

theorem along_of_each (each : ∀ s e, ok s e) (s : σ) (es : List ε) : Along step ok s es := by
  induction es generalizing s with
  | nil => trivial
  | cons e es ih => exact ⟨each s e, ih _⟩

theorem along_congr (same : ∀ s e, ok s e ↔ guard s e) (s : σ) (es : List ε) :
    Along step ok s es ↔ Along step guard s es := by
  induction es generalizing s with
  | nil => exact Iff.rfl
  | cons e es ih => exact and_congr (same s e) (ih (step s e))

theorem Along.and {s : σ} {es : List ε} (allowed : Along step ok s es)
    (guarded : Along step guard s es) : Along step (fun s e => ok s e ∧ guard s e) s es := by
  induction es generalizing s with
  | nil => trivial
  | cons e es ih =>
      exact ⟨⟨allowed.1, guarded.1⟩, ih allowed.2 guarded.2⟩

theorem run_keeps (keep : ∀ s e, Inv s → Inv (step s e)) {s : σ} (initial : Inv s)
    (es : List ε) : Inv (run step s es) := by
  induction es generalizing s with
  | nil => exact initial
  | cons e es ih => exact ih (keep s e initial)

theorem run_view {κ τ : Type*} [DecidableEq κ] {view : σ → κ → τ} {key : ε → κ}
    {record : τ → ε → τ}
    (each : ∀ s e k, view (step s e) k = if key e = k then record (view s k) e else view s k)
    (s : σ) (es : List ε) (k : κ) :
    view (run step s es) k = (es.filter fun e => key e = k).foldl record (view s k) := by
  induction es generalizing s with
  | nil => rfl
  | cons e es ih =>
      rw [run_cons, ih, each]
      by_cases here : key e = k
      · simp [here]
      · simp [here]

theorem always_of_invariant (keep : ∀ s e, ok s e → Inv s → Inv (step s e)) {s : σ} {es : List ε}
    (initial : Inv s) (allowed : Along step ok s es) : Always step Inv s es := by
  induction es generalizing s with
  | nil => exact initial
  | cons e es ih => exact ⟨initial, ih (keep s e allowed.1 initial) allowed.2⟩

theorem along_of_invariant (keep : ∀ s e, ok s e → Inv s → Inv (step s e))
    (each : ∀ s e, ok s e → Inv s → guard s e) {s : σ} {es : List ε} (initial : Inv s)
    (allowed : Along step ok s es) : Along step guard s es := by
  induction es generalizing s with
  | nil => trivial
  | cons e es ih =>
      exact ⟨each s e allowed.1 initial, ih (keep s e allowed.1 initial) allowed.2⟩

theorem Along.congr {ok' : σ → ε → Prop} (keep : ∀ s e, ok s e → Inv s → Inv (step s e))
    (same : ∀ s e, ok s e → Inv s → (ok' s e ↔ guard s e)) {s : σ} {es : List ε} (initial : Inv s)
    (allowed : Along step ok s es) : Along step ok' s es ↔ Along step guard s es := by
  induction es generalizing s with
  | nil => exact Iff.rfl
  | cons e es ih =>
      exact and_congr (same s e allowed.1 initial) (ih (keep s e allowed.1 initial) allowed.2)

theorem Always.mono {Q : σ → Prop} (weaker : ∀ s, P s → Q s) {s : σ} {es : List ε}
    (always : Always step P s es) : Always step Q s es := by
  induction es generalizing s with
  | nil => exact weaker s always
  | cons e es ih => exact ⟨weaker s always.1, ih always.2⟩

theorem Always.head {s : σ} {es : List ε} (always : Always step P s es) : P s := by
  cases es with
  | nil => exact always
  | cons e es => exact always.1

theorem always_of_last (back : ∀ s e, P (step s e) → P s) {s : σ} {es : List ε}
    (last : P (run step s es)) : Always step P s es := by
  induction es generalizing s with
  | nil => exact last
  | cons e es ih =>
      have later := ih last
      exact ⟨back s e later.head, later⟩

theorem Always.along {s : σ} {es : List ε} (always : Always step P s es)
    (each : ∀ s e, P s → ok s e) : Along step ok s es := by
  induction es generalizing s with
  | nil => trivial
  | cons e es ih => exact ⟨each s e always.1, ih always.2⟩

theorem Always.congr {Q : σ → Prop} {s : σ} {es : List ε} (always : Always step Inv s es)
    (same : ∀ s, Inv s → (P s ↔ Q s)) : Always step P s es ↔ Always step Q s es := by
  induction es generalizing s with
  | nil => exact same s always
  | cons e es ih => exact and_congr (same s always.1) (ih always.2)

/-- An exact guard: guarded steps keep the invariant, the property follows from the invariant, and
the first unguarded step leaves a state without the property. -/
theorem always_iff_along (keep : ∀ s e, ok s e → Inv s → guard s e → Inv (step s e))
    (sound : ∀ s, Inv s → P s)
    (breaks : ∀ s e, ok s e → Inv s → ¬ guard s e → ¬ P (step s e))
    {s : σ} {es : List ε} (initial : Inv s) (allowed : Along step ok s es) :
    Always step P s es ↔ Along step guard s es := by
  induction es generalizing s with
  | nil => exact ⟨fun _ => trivial, fun _ => sound s initial⟩
  | cons e es ih =>
      constructor
      · intro always
        have guarded : guard s e := by
          by_contra unguarded
          exact breaks s e allowed.1 initial unguarded always.2.head
        exact ⟨guarded, (ih (keep s e allowed.1 initial guarded) allowed.2).mp always.2⟩
      · intro along
        have next := keep s e allowed.1 initial along.1
        exact ⟨sound s initial, (ih next allowed.2).mpr along.2⟩

end SpotGridBot.Runs
