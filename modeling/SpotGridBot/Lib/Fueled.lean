import Mathlib.Data.List.Basic

namespace SpotGridBot.Fueled

theorem countP_lt {α : Type*} {p q : α → Bool} {l : List α} {a : α}
    (weaker : ∀ b ∈ l, p b = true → q b = true) (member : a ∈ l) (fails : ¬ p a = true)
    (holds : q a = true) : l.countP p < l.countP q := by
  induction l with
  | nil => contradiction
  | cons b l ih =>
      have weaker' := fun c later => weaker c (List.mem_cons_of_mem b later)
      cases List.mem_cons.mp member with
      | inl here =>
          subst here
          rw [List.countP_cons_of_neg fails, List.countP_cons_of_pos holds]
          exact Nat.lt_succ_of_le (List.countP_mono_left weaker')
      | inr later =>
          have less := ih weaker' later
          have first := weaker b List.mem_cons_self
          rw [List.countP_cons, List.countP_cons]
          split_ifs with both left right
          · omega
          · exact absurd (first both) left
          · omega
          · omega

section Loops
variable {σ α : Type*} {f g : σ → α → Option σ} {l : List α} {s s' : σ}

theorem foldlM_mono (more : ∀ s a s', f s a = some s' → g s a = some s')
    (ran : l.foldlM f s = some s') : l.foldlM g s = some s' := by
  induction l generalizing s with
  | nil => exact ran
  | cons a l ih =>
      rw [List.foldlM_cons] at ran ⊢
      obtain ⟨next, first, rest⟩ := Option.bind_eq_some_iff.mp ran
      exact Option.bind_eq_some_iff.mpr ⟨next, more _ _ _ first, ih rest⟩

theorem foldlM_isSome (each : ∀ s, ∀ a ∈ l, (f s a).isSome) (s : σ) :
    (l.foldlM f s).isSome := by
  induction l generalizing s with
  | nil => rfl
  | cons a l ih =>
      obtain ⟨next, first⟩ := Option.isSome_iff_exists.mp (each s a List.mem_cons_self)
      rw [List.foldlM_cons, first]
      exact ih (fun s a member => each s a (List.mem_cons_of_mem _ member)) next

theorem foldlM_split {seen rest : List α} {a : α} {t : σ} (split : l = seen ++ a :: rest)
    (before : seen.foldlM f s = some t) (ran : l.foldlM f s = some s') :
    ∃ next, f t a = some next ∧ rest.foldlM f next = some s' := by
  rw [split, List.foldlM_append, before] at ran
  exact Option.bind_eq_some_iff.mp (by simpa using ran)

theorem foldlM_prefix_rule (Inv : List α → σ → Prop)
    (each : ∀ seen a rest t t', l = seen ++ a :: rest → seen.foldlM f s = some t → Inv seen t →
      f t a = some t' → Inv (seen ++ [a]) t')
    (initial : Inv [] s) (ran : l.foldlM f s = some s') : Inv l s' := by
  have loop : ∀ todo seen t, l = seen ++ todo → seen.foldlM f s = some t → Inv seen t →
      todo.foldlM f t = some s' → Inv l s' := by
    intro todo
    induction todo with
    | nil =>
        intro seen t split _ holds ran
        rw [List.append_nil] at split
        rw [split]
        exact Option.some.inj ran ▸ holds
    | cons a todo ih =>
        intro seen t split before holds ran
        rw [List.foldlM_cons] at ran
        obtain ⟨next, first, rest⟩ := Option.bind_eq_some_iff.mp ran
        refine ih (seen ++ [a]) next (by simp [split]) ?_ ?_ rest
        · rw [List.foldlM_append, before]
          simpa using first
        · exact each seen a todo t next split before holds first
  exact loop l [] s rfl rfl initial ran

theorem foldlM_rule (Inv : List α → σ → Prop)
    (each : ∀ seen a s s', a ∈ l → Inv seen s → f s a = some s' → Inv (seen ++ [a]) s')
    (initial : Inv [] s) (ran : l.foldlM f s = some s') : Inv l s' := by
  refine foldlM_prefix_rule Inv ?_ initial ran
  intro seen a rest t t' split _
  exact each seen a t t' (by simp [split])

end Loops

end SpotGridBot.Fueled
