import Mathlib.Data.List.Perm.Lattice
import Mathlib.Logic.Function.Basic

namespace SpotGridBot.Keyed
variable {α α' β κ : Type*} [DecidableEq κ] {f : α → κ × β} {g : α' → κ × β}

theorem eraseP_eq_filter {l : List α} (distinct : (l.map fun a => (f a).1).Nodup) (k : κ) :
    (l.eraseP fun a => (f a).1 == k) = l.filter fun a => (f a).1 != k := by
  induction l with
  | nil => rfl
  | cons a l ih =>
      obtain ⟨new, distinct⟩ := List.nodup_cons.mp distinct
      by_cases here : (f a).1 = k
      · have others : ∀ b ∈ l, ((f b).1 != k) = true := by
          intro b member
          have other : (f b).1 ≠ k := by
            intro same
            exact new (List.mem_map.mpr ⟨b, member, same.trans here.symm⟩)
          simpa using other
        rw [List.eraseP_cons_of_pos (by simp [here]), List.filter_cons_of_neg (by simp [here]),
          List.filter_eq_self.mpr others]
      · rw [List.eraseP_cons_of_neg (by simp [here]), List.filter_cons_of_pos (by simp [here]),
          ih distinct]

theorem perm_eraseP {l : List α} {l' : List α'} (same : (l.map f).Perm (l'.map g))
    (distinct : (l'.map fun b => (g b).1).Nodup) (k : κ) :
    ((l.eraseP fun a => (f a).1 == k).map f).Perm ((l'.filter fun b => (g b).1 != k).map g) := by
  have keys : (l.map fun a => (f a).1).Perm (l'.map fun b => (g b).1) := by
    simpa only [List.map_map, Function.comp_def] using same.map Prod.fst
  rw [eraseP_eq_filter (keys.nodup_iff.mpr distinct)]
  have left : (l.filter fun a => (f a).1 != k).map f = (l.map f).filter fun c => c.1 != k := by
    rw [List.filter_map]
    rfl
  have right : (l'.filter fun b => (g b).1 != k).map g = (l'.map g).filter fun c => c.1 != k := by
    rw [List.filter_map]
    rfl
  rw [left, right]
  exact same.filter _

theorem lookup_of_mem {κ : Type*} [BEq κ] [LawfulBEq κ] {table : List (κ × β)}
    (distinct : (table.map Prod.fst).Nodup) {k : κ} {b : β} (member : (k, b) ∈ table) :
    table.lookup k = some b := by
  induction table with
  | nil => cases member
  | cons first table ih =>
      obtain ⟨new, distinct⟩ := List.nodup_cons.mp distinct
      rw [List.lookup_cons]
      rcases List.mem_cons.mp member with rfl | there
      · rw [beq_self_eq_true]
      · have other : k ≠ first.1 := by
          rintro rfl
          exact new (List.mem_map.mpr ⟨_, there, rfl⟩)
        rw [beq_false_of_ne other]
        exact ih distinct there

theorem mem_of_lookup {κ : Type*} [BEq κ] [LawfulBEq κ] {table : List (κ × β)} {k : κ} {b : β}
    (found : table.lookup k = some b) : (k, b) ∈ table := by
  obtain ⟨before, after, split, -⟩ := List.lookup_eq_some_iff.mp found
  rw [split]
  exact List.mem_append_right before List.mem_cons_self

theorem foldl_update (key : α → κ) (value : α → β) (writes : List α) (m : κ → β) (k : κ) :
    writes.foldl (fun m write => Function.update m (key write) (value write)) m k =
      ((writes.reverse.find? fun write => key write = k).map value).getD (m k) := by
  induction writes generalizing m with
  | nil => rfl
  | cons write writes ih =>
      rw [List.foldl_cons, ih, List.reverse_cons, List.find?_append]
      cases writes.reverse.find? fun write => key write = k with
      | some later => rfl
      | none =>
          by_cases here : key write = k
          · subst here
            simp
          · simp [here, Function.update_of_ne (Ne.symm here)]

end SpotGridBot.Keyed
