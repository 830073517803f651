import SpotGridBot.Lib.Runs

namespace SpotGridBot.Runs

variable {σ ε : Type*} {step : σ → ε → σ} {ok : σ → ε → Prop} {R : σ → σ → Prop}
  {visible : ε → Bool}

theorem run_filter (seen : ∀ s t e, visible e = true → ok s e → R s t → R (step s e) (step t e))
    (unseen : ∀ s t e, visible e = false → ok s e → R s t → R (step s e) t)
    {s t : σ} {es : List ε} (related : R s t) (allowed : Along step ok s es) :
    R (run step s es) (run step t (es.filter visible)) := by
  induction es generalizing s t with
  | nil => exact related
  | cons e es ih =>
      cases shown : visible e with
      | true =>
          rw [List.filter_cons_of_pos shown]
          exact ih (seen s t e shown allowed.1 related) allowed.2
      | false =>
          rw [List.filter_cons_of_neg (by simp [shown])]
          exact ih (unseen s t e shown allowed.1 related) allowed.2

end SpotGridBot.Runs
