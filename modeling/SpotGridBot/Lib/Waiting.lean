import Mathlib.Logic.Function.Basic
import Mathlib.Data.Nat.Notation
import Mathlib.Tactic.SplitIfs

namespace SpotGridBot.Waiting
variable {σ : Type*} {threads threads' : ℕ → σ} {p : σ → Prop} {stage : σ}

def Nobody (threads : ℕ → σ) (p : σ → Prop) : Prop := ∀ w, ¬ p (threads w)

theorem Nobody.update (nobody : Nobody threads p) (w : ℕ) (leaves : ¬ p stage) :
    Nobody (Function.update threads w stage) p := by
  intro v
  by_cases same : v = w
  · rw [same, Function.update_self]
    exact leaves
  · rw [Function.update_of_ne same]
    exact nobody v

theorem Nobody.of_imp (nobody : Nobody threads p) (imp : ∀ w, p (threads' w) → p (threads w)) :
    Nobody threads' p :=
  fun w here => nobody w (imp w here)

theorem nobody_notified (blocked : σ → Prop) [DecidablePred blocked]
    (waiting : ∀ w, p (threads w) → blocked (threads w)) (woken : ¬ p stage) :
    Nobody (fun w => if blocked (threads w) then stage else threads w) p := by
  intro w
  show ¬ p (if blocked (threads w) then stage else threads w)
  split_ifs with here
  · exact woken
  · exact fun waits => here (waiting w waits)

end SpotGridBot.Waiting
