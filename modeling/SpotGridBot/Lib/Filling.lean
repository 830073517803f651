import Mathlib.Algebra.BigOperators.Group.List.Basic
import Mathlib.Algebra.Order.BigOperators.Group.List
import Mathlib.Algebra.Order.Ring.Int

namespace SpotGridBot.Filling
variable {α : Type*} (weight : α → ℤ)

def total (l : List α) : ℤ := (l.map weight).sum

@[simp] theorem total_nil : total weight [] = 0 := rfl

@[simp] theorem total_cons (a : α) (l : List α) :
    total weight (a :: l) = weight a + total weight l :=
  List.sum_cons

@[simp] theorem total_append (l l' : List α) :
    total weight (l ++ l') = total weight l + total weight l' := by
  simp [total]

structure Filled (target : ℤ) (l taken : List α) : Prop where
  isPrefix : taken <+: l
  enough : taken = l ∨ target ≤ total weight taken
  shortest : ∀ shorter, shorter <+: taken → shorter ≠ taken → total weight shorter < target

def fill (target : ℤ) : List α → List α
  | [] => []
  | a :: l => if 0 < target then a :: fill (target - weight a) l else []

theorem fill_filled (target : ℤ) (l : List α) : Filled weight target l (fill weight target l) := by
  induction l generalizing target with
  | nil =>
      refine ⟨List.nil_prefix, .inl rfl, fun shorter isPrefix differ => ?_⟩
      exact absurd (List.prefix_nil.mp isPrefix) differ
  | cons a l ih =>
      unfold fill
      split
      next positive =>
        obtain ⟨isPrefix, enough, shortest⟩ := ih (target - weight a)
        refine ⟨List.prefix_cons_inj a |>.mpr isPrefix, ?_, ?_⟩
        · rcases enough with all | enough
          · exact .inl (by rw [all])
          · exact .inr (by rw [total_cons]; omega)
        · intro shorter isPrefix differ
          cases shorter with
          | nil => exact positive
          | cons b shorter =>
              obtain ⟨rfl, isPrefix⟩ := List.cons_prefix_cons.mp isPrefix
              have short := shortest shorter isPrefix (by rintro rfl; exact differ rfl)
              rw [total_cons]
              omega
      next reached =>
        refine ⟨List.nil_prefix, .inr (by simpa using reached), fun shorter isPrefix differ => ?_⟩
        exact absurd (List.prefix_nil.mp isPrefix) differ

structure Chunked (target : ℤ) (l : List α) (groups : List (List α)) : Prop where
  flatten : groups.flatten = l
  nonempty : ∀ group ∈ groups, group ≠ []
  enough : ∀ group ∈ groups.dropLast, target ≤ total weight group
  short : 0 < target → ∀ group ∈ groups, total weight group.dropLast < target

def chunks (target : ℤ) (chunk : List α) : List α → List (List α)
  | [] => if chunk.isEmpty then [] else [chunk]
  | a :: l =>
      if target ≤ total weight (chunk ++ [a]) then (chunk ++ [a]) :: chunks target [] l
      else chunks target (chunk ++ [a]) l

variable {weight} {target : ℤ}

theorem Chunked.tail {l group : List α} {groups : List (List α)}
    (chunked : Chunked weight target l (group :: groups)) :
    Chunked weight target groups.flatten groups where
  flatten := rfl
  nonempty := fun other member => chunked.nonempty other (List.mem_cons_of_mem _ member)
  enough := by
    intro other member
    have some : groups ≠ [] := by
      rintro rfl
      cases member
    refine chunked.enough other ?_
    rw [List.dropLast_cons_of_ne_nil some]
    exact List.mem_cons_of_mem _ member
  short := fun positive other member =>
    chunked.short positive other (List.mem_cons_of_mem _ member)

theorem chunks_single (nonpos : target ≤ 0) {l : List α} (nonneg : ∀ a ∈ l, 0 ≤ weight a) :
    chunks weight target [] l = l.map fun a => [a] := by
  induction l with
  | nil => rfl
  | cons a l ih =>
      obtain ⟨first, rest⟩ := List.forall_mem_cons.mp nonneg
      have reached : target ≤ total weight [a] := by simpa using nonpos.trans first
      rw [chunks, List.nil_append, if_pos reached, ih rest, List.map_cons]

theorem chunks_ne_nil {chunk : List α} (nonempty : chunk ≠ []) (l : List α) :
    chunks weight target chunk l ≠ [] := by
  induction l generalizing chunk with
  | nil => simp [chunks, nonempty]
  | cons a l ih =>
      unfold chunks
      split
      next => exact List.cons_ne_nil _ _
      next => exact ih (by simp)

theorem chunks_chunked (chunk l : List α)
    (short : 0 < target → chunk ≠ [] → total weight chunk < target)
    (shorter : 0 < target → total weight chunk.dropLast < target) :
    Chunked weight target (chunk ++ l) (chunks weight target chunk l) := by
  induction l generalizing chunk with
  | nil =>
      unfold chunks
      split
      next empty =>
        obtain rfl := List.isEmpty_iff.mp empty
        exact ⟨rfl, by simp, by simp, by simp⟩
      next nonempty =>
        refine ⟨by simp, by simpa using nonempty, by simp, fun positive => ?_⟩
        simpa using shorter positive
  | cons a l ih =>
      have weighs : 0 < target → total weight chunk < target := by
        intro positive
        by_cases empty : chunk = []
        · simpa [empty] using positive
        · exact short positive empty
      unfold chunks
      split
      next reached =>
        obtain ⟨flatten, nonempty, enough, least⟩ :=
          ih [] (by simp) (fun positive => by simpa using positive)
        refine ⟨by simp [flatten], ?_, ?_, ?_⟩
        · exact List.forall_mem_cons.mpr ⟨by simp, nonempty⟩
        · cases rest : chunks weight target [] l with
          | nil => simp
          | cons next others =>
              rw [rest] at enough
              exact List.forall_mem_cons.mpr ⟨reached, enough⟩
        · intro positive
          exact List.forall_mem_cons.mpr ⟨by simpa using weighs positive, least positive⟩
      next missing =>
        have whole : chunk ++ a :: l = (chunk ++ [a]) ++ l := by simp
        rw [whole]
        exact ih (chunk ++ [a]) (fun _ _ => not_le.mp missing) (fun positive => by simpa using weighs positive)

theorem total_nonneg {l : List α} (nonneg : ∀ a ∈ l, 0 ≤ weight a) : 0 ≤ total weight l :=
  List.sum_nonneg (by simpa using nonneg)

theorem total_le_of_prefix {shorter l : List α} (isPrefix : shorter <+: l)
    (nonneg : ∀ a ∈ l, 0 ≤ weight a) : total weight shorter ≤ total weight l := by
  obtain ⟨rest, rfl⟩ := isPrefix
  rw [total_append]
  have := total_nonneg fun a member => nonneg a (List.mem_append_right shorter member)
  omega

theorem prefix_dropLast {shorter l : List α} (isPrefix : shorter <+: l) (differ : shorter ≠ l) :
    shorter <+: l.dropLast := by
  obtain ⟨rest, rfl⟩ := isPrefix
  have more : rest ≠ [] := by
    rintro rfl
    exact differ (by simp)
  rw [List.dropLast_append_of_ne_nil more]
  exact List.prefix_append _ _

theorem Chunked.first_le (positive : 0 < target) {l group group' : List α}
    {groups groups' : List (List α)} (chunked : Chunked weight target l (group :: groups))
    (chunked' : Chunked weight target l (group' :: groups'))
    (nonneg : ∀ a ∈ l, 0 ≤ weight a) (isPrefix : group <+: group') : group = group' := by
  by_contra differ
  have rest : groups ≠ [] := by
    rintro rfl
    have longer : group'.length ≤ group.length := by
      have := congrArg List.length (chunked'.flatten.trans chunked.flatten.symm)
      simp only [List.flatten_cons, List.length_append, List.flatten_nil, List.length_nil] at this
      omega
    exact differ (isPrefix.eq_of_length (le_antisymm isPrefix.length_le longer))
  have enough := chunked.enough group (by
    rw [List.dropLast_cons_of_ne_nil rest]
    exact List.mem_cons_self)
  have short := chunked'.short positive group' List.mem_cons_self
  have least := total_le_of_prefix (prefix_dropLast isPrefix differ) fun a member =>
    nonneg a (by
      rw [← chunked'.flatten]
      exact List.mem_append_left _ ((List.dropLast_sublist _).subset member))
  omega

theorem Chunked.unique (positive : 0 < target) {l : List α} {groups groups' : List (List α)}
    (chunked : Chunked weight target l groups) (chunked' : Chunked weight target l groups')
    (nonneg : ∀ a ∈ l, 0 ≤ weight a) : groups = groups' := by
  induction groups generalizing l groups' with
  | nil =>
      cases groups' with
      | nil => rfl
      | cons group' groups' =>
          have empty := chunked'.flatten.trans chunked.flatten.symm
          exact absurd (List.append_eq_nil_iff.mp empty).1
            (chunked'.nonempty group' List.mem_cons_self)
  | cons group groups ih =>
      cases groups' with
      | nil =>
          have empty := chunked.flatten.trans chunked'.flatten.symm
          exact absurd (List.append_eq_nil_iff.mp empty).1
            (chunked.nonempty group List.mem_cons_self)
      | cons group' groups' =>
          have same : group = group' := by
            have whole := chunked.flatten.trans chunked'.flatten.symm
            have other : group' <+: (group :: groups).flatten := by
              rw [whole]
              exact List.prefix_append _ _
            rcases List.prefix_or_prefix_of_prefix (List.prefix_append group groups.flatten)
              other with isPrefix | isPrefix
            · exact chunked.first_le positive chunked' nonneg isPrefix
            · exact (chunked'.first_le positive chunked nonneg isPrefix).symm
          subst same
          have rest : groups.flatten = groups'.flatten :=
            List.append_cancel_left (chunked.flatten.trans chunked'.flatten.symm)
          refine congrArg (group :: ·) (ih chunked.tail (rest ▸ chunked'.tail) ?_)
          intro a member
          exact nonneg a (by
            rw [← chunked.flatten]
            exact List.mem_append_right _ member)

end SpotGridBot.Filling
