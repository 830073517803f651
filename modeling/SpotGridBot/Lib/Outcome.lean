import Mathlib.Algebra.BigOperators.Group.List.Basic
import Mathlib.Data.List.Basic

namespace SpotGridBot

inductive Outcome (σ : Type*) where
  | done (s : σ)
  | thrown (s : σ)
deriving DecidableEq

namespace Outcome
variable {σ α : Type*}

def state : Outcome σ → σ
  | done s => s
  | thrown s => s

def bind (outcome : Outcome σ) (next : σ → Outcome σ) : Outcome σ :=
  match outcome with
  | done s => next s
  | thrown s => thrown s

def map {τ : Type*} (within : σ → τ) : Outcome σ → Outcome τ
  | done s => done (within s)
  | thrown s => thrown (within s)

@[simp] theorem state_map {τ : Type*} (within : σ → τ) (outcome : Outcome σ) :
    (outcome.map within).state = within outcome.state := by
  cases outcome with
  | _ => rfl

@[simp] theorem state_done (s : σ) : (done s).state = s := rfl
@[simp] theorem state_thrown (s : σ) : (thrown s).state = s := rfl
@[simp] theorem bind_done (s : σ) (next : σ → Outcome σ) : (done s).bind next = next s := rfl
@[simp] theorem bind_thrown (s : σ) (next : σ → Outcome σ) :
    (thrown s).bind next = thrown s := rfl

def forEach (body : σ → α → Outcome σ) : σ → List α → Outcome σ
  | s, [] => done s
  | s, a :: as => (body s a).bind fun s => forEach body s as

@[simp] theorem forEach_cons (body : σ → α → Outcome σ) (s : σ) (a : α) (as : List α) :
    forEach body s (a :: as) = (body s a).bind fun s => forEach body s as := rfl

theorem forEach_map_done {β : Type*} {body : σ → α → Outcome σ} {g : β → α} {f : σ → β → σ}
    (each : ∀ s b, body s (g b) = .done (f s b)) (s : σ) (bs : List β) :
    forEach body s (bs.map g) = .done (bs.foldl f s) := by
  induction bs generalizing s with
  | nil => rfl
  | cons b bs ih => rw [List.map_cons, forEach_cons, each, bind_done, ih, List.foldl_cons]

/-- The loop rule: an iteration keeps the invariant for the rest of the list, or throws in a state
that satisfies `Failed`. -/
theorem forEach_rule {body : σ → α → Outcome σ} (Inv : List α → σ → Prop) (Failed : σ → Prop)
    (each : ∀ a as s, Inv (a :: as) s →
      (∃ s', body s a = done s' ∧ Inv as s') ∨ (∃ s', body s a = thrown s' ∧ Failed s'))
    {as : List α} {s : σ} (initial : Inv as s) :
    (∃ s', forEach body s as = done s' ∧ Inv [] s') ∨
    (∃ s', forEach body s as = thrown s' ∧ Failed s') := by
  induction as generalizing s with
  | nil => exact .inl ⟨s, rfl, initial⟩
  | cons a as ih =>
      rcases each a as s initial with ⟨s', ran, kept⟩ | ⟨s', threw, failed⟩
      · rw [forEach_cons, ran, bind_done]
        exact ih kept
      · exact .inr ⟨s', by rw [forEach_cons, threw, bind_thrown], failed⟩

def Ends (Done Failed : σ → Prop) : Outcome σ → Prop
  | done s => Done s
  | thrown s => Failed s

section Ends
variable {Mid Done Failed : σ → Prop} {outcome : Outcome σ}

theorem Ends.bind (first : outcome.Ends Mid Failed) {next : σ → Outcome σ}
    (rest : ∀ s, Mid s → (next s).Ends Done Failed) : (outcome.bind next).Ends Done Failed := by
  cases outcome with
  | done s => exact rest s first
  | thrown s => exact first

theorem Ends.mono {Done' Failed' : σ → Prop} (ends : outcome.Ends Done Failed)
    (whenDone : ∀ s, Done s → Done' s) (whenThrown : ∀ s, Failed s → Failed' s) :
    outcome.Ends Done' Failed' := by
  cases outcome with
  | done s => exact whenDone s ends
  | thrown s => exact whenThrown s ends

theorem Ends.state (ends : outcome.Ends Done Done) : Done outcome.state := by
  cases outcome with
  | done s => exact ends
  | thrown s => exact ends

theorem ends_of_state (holds : Done outcome.state) : outcome.Ends Done Done := by
  cases outcome with
  | done s => exact holds
  | thrown s => exact holds

theorem forEach_ends {body : σ → α → Outcome σ} (Inv : List α → σ → Prop)
    (each : ∀ a as s, Inv (a :: as) s → (body s a).Ends (Inv as) Failed) {as : List α} {s : σ}
    (initial : Inv as s) : (forEach body s as).Ends (Inv []) Failed := by
  induction as generalizing s with
  | nil => exact initial
  | cons a as ih => exact (each a as s initial).bind fun s kept => ih kept

def iterations (body : σ → α → Outcome σ) : σ → List α → List (σ × α)
  | _, [] => []
  | s, a :: as => (s, a) :: match body s a with
      | done s' => iterations body s' as
      | thrown _ => []

section Iterations
variable {body : σ → α → Outcome σ} {guard : σ → α → Prop} {Inv : List α → σ → Prop} {as : List α}
  {s : σ}

theorem forEach_guarded (Inv : List α → σ → Prop) (guard : σ → α → Prop)
    (keep : ∀ a as s, Inv (a :: as) s → guard s a → (body s a).Ends (Inv as) Failed)
    (initial : Inv as s) (guarded : ∀ v ∈ iterations body s as, guard v.1 v.2) :
    (forEach body s as).Ends (Inv []) Failed := by
  induction as generalizing s with
  | nil => exact initial
  | cons a as ih =>
      obtain ⟨here, later⟩ := List.forall_mem_cons.mp guarded
      have kept := keep a as s initial here
      rw [forEach_cons]
      cases ran : body s a with
      | done s' =>
          rw [ran] at kept later
          exact ih kept later
      | thrown s' =>
          rw [ran] at kept
          exact kept

theorem forEach_unguarded (Inv : List α → σ → Prop) (guard : σ → α → Prop) {P : σ → Prop}
    (keep : ∀ a as s, Inv (a :: as) s → guard s a → (body s a).Ends (Inv as) Failed)
    (breaks : ∀ a as s, Inv (a :: as) s → ¬ guard s a → ¬ P (body s a).state)
    (broken : ∀ s a, ¬ P s → ¬ P (body s a).state) (initial : Inv as s)
    (unguarded : ¬ ∀ v ∈ iterations body s as, guard v.1 v.2) :
    ¬ P (forEach body s as).state := by
  have stays : ∀ (as : List α) (s : σ), ¬ P s → ¬ P (forEach body s as).state := by
    intro as
    induction as with
    | nil => exact fun s isBroken => isBroken
    | cons a as ih =>
        intro s isBroken
        have next := broken s a isBroken
        rw [forEach_cons]
        cases ran : body s a with
        | done s' => exact ih s' (by simpa [ran] using next)
        | thrown s' => simpa [ran] using next
  induction as generalizing s with
  | nil => simp [iterations] at unguarded
  | cons a as ih =>
      rw [forEach_cons]
      by_cases here : guard s a
      · have kept := keep a as s initial here
        simp only [iterations, List.forall_mem_cons, here, true_and] at unguarded
        cases ran : body s a with
        | done s' =>
            rw [ran] at kept unguarded
            exact ih kept unguarded
        | thrown s' => simp [ran] at unguarded
      · have isBroken := breaks a as s initial here
        cases ran : body s a with
        | done s' => exact stays as s' (by simpa [ran] using isBroken)
        | thrown s' => simpa [ran] using isBroken

theorem iterations_invariant (keep : ∀ a as s, Inv (a :: as) s → (body s a).Ends (Inv as) Failed)
    (initial : Inv as s) : ∀ v ∈ iterations body s as, ∃ rest, Inv (v.2 :: rest) v.1 := by
  induction as generalizing s with
  | nil => simp [iterations]
  | cons a as ih =>
      have kept := keep a as s initial
      simp only [iterations, List.forall_mem_cons]
      refine ⟨⟨as, initial⟩, ?_⟩
      cases ran : body s a with
      | done s' =>
          rw [ran] at kept
          exact ih kept
      | thrown s' => simp

theorem iterations_prefix (body : σ → α → Outcome σ) (s : σ) (as : List α) :
    (iterations body s as).map Prod.snd <+: as ∧
    ∀ s', forEach body s as = done s' → (iterations body s as).map Prod.snd = as := by
  induction as generalizing s with
  | nil => simp [iterations]
  | cons a as ih =>
      simp only [iterations, List.map_cons, forEach_cons]
      cases body s a with
      | done s' =>
          obtain ⟨isPrefix, whole⟩ := ih s'
          refine ⟨List.cons_prefix_cons.mpr ⟨rfl, isPrefix⟩, fun s'' ends => ?_⟩
          rw [whole s'' ends]
      | thrown s' => simp

theorem forEach_total {M : Type*} [AddMonoid M] {f : σ → M} {g : σ → α → M}
    (each : ∀ s a, f (body s a).state = f s + g s a) (as : List α) (s : σ) :
    f (forEach body s as).state =
      f s + ((iterations body s as).map fun v => g v.1 v.2).sum := by
  induction as generalizing s with
  | nil => simp [forEach, iterations]
  | cons a as ih =>
      have here := each s a
      rw [forEach_cons]
      cases ran : body s a with
      | done s' =>
          rw [ran, state_done] at here
          rw [bind_done, ih s', here, add_assoc]
          simp [iterations, ran]
      | thrown s' =>
          rw [ran, state_thrown] at here
          simp [iterations, ran, here]

end Iterations

end Ends

end Outcome

end SpotGridBot
