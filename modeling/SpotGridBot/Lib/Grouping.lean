import Mathlib.Data.Finset.Card

namespace SpotGridBot.Grouping
variable {α κ : Type*} {key : α → κ} {better : κ → κ → Prop} {group : List α}
  {groups : List (List α)}

structure Grouped (key : α → κ) (better : κ → κ → Prop) (groups : List (List α)) : Prop where
  nonempty : ∀ group ∈ groups, group ≠ []
  single : ∀ group ∈ groups, ∃ k, ∀ a ∈ group, key a = k
  worsening : groups.Pairwise fun group later => ∀ a ∈ group, ∀ b ∈ later, better (key a) (key b)

theorem Grouped.nil : Grouped key better [] where
  nonempty := by simp
  single := by simp
  worsening := List.Pairwise.nil

theorem Grouped.cons (rest : Grouped key better groups) (nonempty : group ≠ [])
    (single : ∃ k, ∀ a ∈ group, key a = k)
    (first : ∀ a ∈ group, ∀ b ∈ groups.flatten, better (key a) (key b)) :
    Grouped key better (group :: groups) where
  nonempty := List.forall_mem_cons.mpr ⟨nonempty, rest.nonempty⟩
  single := List.forall_mem_cons.mpr ⟨single, rest.single⟩
  worsening := by
    refine List.pairwise_cons.mpr ⟨?_, rest.worsening⟩
    intro later member a here b there
    exact first a here b (List.mem_flatten_of_mem member there)

theorem Grouped.sublist {groups' : List (List α)} (grouped : Grouped key better groups)
    (sub : groups'.Sublist groups) : Grouped key better groups' where
  nonempty := fun group member => grouped.nonempty group (sub.subset member)
  single := fun group member => grouped.single group (sub.subset member)
  worsening := grouped.worsening.sublist sub

theorem Grouped.uncons (grouped : Grouped key better (group :: groups)) :
    ∃ k, (∀ a ∈ group, key a = k) ∧ group ≠ [] ∧ (∀ b ∈ groups.flatten, better k (key b)) ∧
      Grouped key better groups := by
  obtain ⟨k, single⟩ := grouped.single group List.mem_cons_self
  have nonempty := grouped.nonempty group List.mem_cons_self
  refine ⟨k, single, nonempty, ?_, grouped.sublist (List.sublist_cons_self _ _)⟩
  intro b there
  obtain ⟨later, member, here⟩ := List.mem_flatten.mp there
  obtain ⟨a, first⟩ := List.exists_mem_of_ne_nil group nonempty
  rw [← single a first]
  exact (List.pairwise_cons.mp grouped.worsening).1 later member a first b here

variable [DecidableEq κ]

def keys (key : α → κ) (l : List α) : Finset κ := (l.map key).toFinset

theorem mem_keys {l : List α} {k : κ} : k ∈ keys key l ↔ ∃ a ∈ l, key a = k := by
  simp [keys]

theorem Grouped.keys_cons {k : κ} (nonempty : group ≠ []) (single : ∀ a ∈ group, key a = k) :
    keys key (group :: groups).flatten = insert k (keys key groups.flatten) := by
  ext k'
  simp only [mem_keys, List.flatten_cons, List.mem_append, Finset.mem_insert]
  constructor
  · rintro ⟨a, here | there, rfl⟩
    · exact .inl (single a here)
    · exact .inr ⟨a, there, rfl⟩
  · rintro (rfl | ⟨a, there, rfl⟩)
    · obtain ⟨a, here⟩ := List.exists_mem_of_ne_nil group nonempty
      exact ⟨a, .inl here, single a here⟩
    · exact ⟨a, .inr there, rfl⟩

def betterKeys (key : α → κ) (better : κ → κ → Prop) [DecidableRel better] (l : List α) (a : α) :
    Finset κ :=
  (keys key l).filter fun k => better k (key a)

theorem notMem_keys (asymm : ∀ k k', better k k' → ¬ better k' k) {k : κ} {l : List α}
    (best : ∀ b ∈ l, better k (key b)) : k ∉ keys key l := by
  intro old
  obtain ⟨b, there, same⟩ := mem_keys.mp old
  have self := best b there
  rw [same] at self
  exact asymm k k self self

theorem Grouped.length_eq (grouped : Grouped key better groups)
    (asymm : ∀ k k', better k k' → ¬ better k' k) :
    groups.length = (keys key groups.flatten).card := by
  induction groups with
  | nil => rfl
  | cons group groups ih =>
      obtain ⟨k, single, nonempty, best, rest⟩ := grouped.uncons
      have new := notMem_keys asymm best
      rw [keys_cons nonempty single, Finset.card_insert_of_notMem new, List.length_cons, ih rest]

theorem Grouped.flatten_take [DecidableRel better] (grouped : Grouped key better groups)
    (asymm : ∀ k k', better k k' → ¬ better k' k) (n : ℕ) :
    (groups.take n).flatten =
      groups.flatten.filter fun a => (betterKeys key better groups.flatten a).card < n := by
  induction groups generalizing n with
  | nil => simp
  | cons group groups ih =>
      obtain ⟨k, single, nonempty, best, rest⟩ := grouped.uncons
      cases n with
      | zero => simp
      | succ n =>
          have keysBetter : ∀ a, betterKeys key better (group :: groups).flatten a =
              if better k (key a) then insert k (betterKeys key better groups.flatten a)
              else betterKeys key better groups.flatten a := by
            intro a
            unfold betterKeys
            rw [keys_cons nonempty single, Finset.filter_insert]
          have first : ∀ a ∈ group,
              (betterKeys key better (group :: groups).flatten a).card < n + 1 := by
            intro a here
            have none : betterKeys key better groups.flatten a = ∅ := by
              refine Finset.filter_eq_empty_iff.mpr fun k' old => ?_
              obtain ⟨b, there, rfl⟩ := mem_keys.mp old
              rw [single a here]
              exact asymm _ _ (best b there)
            rw [keysBetter, none, single a here, if_neg fun self => asymm k k self self]
            exact Nat.succ_pos n
          have later : ∀ b ∈ groups.flatten,
              ((betterKeys key better (group :: groups).flatten b).card < n + 1 ↔
                (betterKeys key better groups.flatten b).card < n) := by
            intro b there
            have new : k ∉ betterKeys key better groups.flatten b :=
              fun old => notMem_keys asymm best (Finset.mem_filter.mp old).1
            rw [keysBetter, if_pos (best b there), Finset.card_insert_of_notMem new]
            exact Nat.succ_lt_succ_iff
          rw [List.take_succ_cons, List.flatten_cons, ih rest n, List.flatten_cons,
            List.filter_append]
          congr 1
          · exact (List.filter_eq_self.mpr fun a here => by simpa using first a here).symm
          · exact List.filter_congr fun b there => by simpa using (later b there).symm

end SpotGridBot.Grouping
