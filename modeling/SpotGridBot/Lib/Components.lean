import SpotGridBot.Lib.Runs

/-!
# Systems of independent parts

`part s i` is the part of the state `s` that belongs to `i`, once there is one. A step of the system
moves every part on its own, by the effect the step has on that part, and may create new parts.
Properties of all parts then follow from properties of one part.
-/

namespace SpotGridBot.Runs

variable {σ ε ι τ κ : Type*} {step : σ → ε → σ} {ok : σ → ε → Prop} {wellFormed : σ → Prop}
  {part : σ → ι → Option τ} {effect : σ → ε → ι → κ} {move : τ → κ → τ} {allowed : τ → κ → Prop}
  {born : τ → Prop}

structure Independent (step : σ → ε → σ) (ok : σ → ε → Prop) (wellFormed : σ → Prop)
    (part : σ → ι → Option τ) (effect : σ → ε → ι → κ) (move : τ → κ → τ)
    (allowed : τ → κ → Prop) (born : τ → Prop) : Prop where
  keeps : ∀ s e, ok s e → wellFormed s → wellFormed (step s e)
  allows : ∀ s e i t, ok s e → wellFormed s → part s i = some t → allowed t (effect s e i)
  moves : ∀ s e i t, ok s e → wellFormed s → part s i = some t →
    part (step s e) i = some (move t (effect s e i))
  creates : ∀ s e i t, ok s e → wellFormed s → part s i = none → part (step s e) i = some t → born t

def Parts (part : σ → ι → Option τ) (P : τ → Prop) (s : σ) : Prop :=
  ∀ i t, part s i = some t → P t

namespace Independent
variable {Inv P : τ → Prop} {guard : τ → κ → Prop}

theorem keeps_parts (system : Independent step ok wellFormed part effect move allowed born)
    (birth : ∀ t, born t → Inv t)
    (keep : ∀ t k, allowed t k → Inv t → guard t k → Inv (move t k))
    {s : σ} {e : ε} (permitted : ok s e) (formed : wellFormed s) (parts : Parts part Inv s)
    (guarded : ∀ i t, part s i = some t → guard t (effect s e i)) :
    Parts part Inv (step s e) := by
  intro i t here
  cases before : part s i with
  | none => exact birth t (system.creates s e i t permitted formed before here)
  | some earlier =>
      have moved := system.moves s e i earlier permitted formed before
      obtain rfl : move earlier (effect s e i) = t := by
        rw [moved] at here
        exact Option.some.inj here
      exact keep earlier _ (system.allows s e i earlier permitted formed before)
        (parts i earlier before) (guarded i earlier before)

theorem always_iff_along (system : Independent step ok wellFormed part effect move allowed born)
    (birth : ∀ t, born t → Inv t)
    (keep : ∀ t k, allowed t k → Inv t → guard t k → Inv (move t k))
    (sound : ∀ t, Inv t → P t)
    (breaks : ∀ t k, allowed t k → Inv t → ¬ guard t k → ¬ P (move t k))
    {s : σ} {es : List ε} (formed : wellFormed s) (initial : Parts part Inv s)
    (permitted : Along step ok s es) :
    Always step (Parts part P) s es ↔
      Along step (fun s e => ∀ i t, part s i = some t → guard t (effect s e i)) s es := by
  let Holds (s : σ) : Prop := wellFormed s ∧ Parts part Inv s
  let Guarded (s : σ) (e : ε) : Prop := ∀ i t, part s i = some t → guard t (effect s e i)
  have keepAll : ∀ s e, ok s e → Holds s → Guarded s e → Holds (step s e) :=
    fun s e permitted holds guarded => ⟨system.keeps s e permitted holds.1,
      system.keeps_parts birth keep permitted holds.1 holds.2 guarded⟩
  have soundAll : ∀ s, Holds s → Parts part P s := fun s holds i t here =>
    sound t (holds.2 i t here)
  have breaksAll : ∀ s e, ok s e → Holds s → ¬ Guarded s e → ¬ Parts part P (step s e) := by
    intro s e permitted holds unguarded all
    apply unguarded
    intro i t here
    by_contra bad
    exact breaks t _ (system.allows s e i t permitted holds.1 here) (holds.2 i t here) bad
      (all i _ (system.moves s e i t permitted holds.1 here))
  exact Runs.always_iff_along keepAll soundAll breaksAll ⟨formed, initial⟩ permitted

end Independent

end SpotGridBot.Runs
