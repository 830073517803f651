import SpotGridBot.Lib.Ordered
import Mathlib.Data.List.InsertIdx
import Mathlib.Data.Set.Pairwise.Basic

namespace SpotGridBot.OrderedMap
variable {κ β : Type*} (lt : κ → κ → Bool)

/-- The first entry that is not below the key, unless the key is below it. -/
def find (key : κ) (map : List (κ × β)) : Option (κ × β) :=
  (map.find? fun entry => !lt entry.1 key).filter fun entry => !lt key entry.1

def emplace (map : List (κ × β)) (entry : κ × β) : List (κ × β) :=
  match find lt entry.1 map with
  | some _ => map
  | none => Ordered.insertBefore (fun other => !lt other.1 entry.1) entry map

def modify (key : κ) (f : β → β) : List (κ × β) → List (κ × β)
  | [] => []
  | entry :: map =>
      if lt entry.1 key then entry :: modify key f map
      else if lt key entry.1 then entry :: map
      else (entry.1, f entry.2) :: map

def Sorted (map : List (κ × β)) : Prop := map.Pairwise fun entry later => lt entry.1 later.1 = true

def Comparable (a b : κ) : Prop := lt a b = true ∨ lt b a = true

variable {lt} {map : List (κ × β)} {key : κ} {entry : κ × β}

theorem find_some (found : find lt key map = some entry) :
    entry ∈ map ∧ ¬ Comparable lt entry.1 key := by
  obtain ⟨first, notAbove⟩ := Option.filter_eq_some_iff.mp found
  have notBelow := List.find?_some first
  refine ⟨List.mem_of_find?_eq_some first, ?_⟩
  rintro (below | above)
  · simp [below] at notBelow
  · simp [above] at notAbove

theorem find_cons (entry : κ × β) (map : List (κ × β)) :
    find lt key (entry :: map) =
      if lt entry.1 key then find lt key map
      else if lt key entry.1 then none
      else some entry := by
  unfold find
  cases below : lt entry.1 key with
  | true => simp [below]
  | false =>
      cases above : lt key entry.1 with
      | true => simp [below, above]
      | false => simp [below, above]

theorem mem_of_mem_emplace {other : κ × β} (member : other ∈ emplace lt map entry) :
    other = entry ∨ other ∈ map := by
  unfold emplace at member
  split at member
  next => exact .inr member
  next => exact Ordered.mem_insertBefore.mp member

theorem mem_emplace_of_mem {other : κ × β} (member : other ∈ map) :
    other ∈ emplace lt map entry := by
  unfold emplace
  split
  next => exact member
  next => exact Ordered.mem_insertBefore.mpr (.inr member)

theorem mem_emplace_of_missing (missing : find lt entry.1 map = none) :
    entry ∈ emplace lt map entry := by
  unfold emplace
  rw [missing]
  exact Ordered.mem_insertBefore.mpr (.inl rfl)

theorem find_emplace_self (itself : lt entry.1 entry.1 = false) :
    ∃ value, find lt entry.1 (emplace lt map entry) = some value ∧
      (find lt entry.1 map = some value ∨ find lt entry.1 map = none ∧ value = entry) := by
  cases found : find lt entry.1 map with
  | some value =>
      refine ⟨value, ?_, .inl rfl⟩
      unfold emplace
      rw [found]
      exact found
  | none =>
      refine ⟨entry, ?_, .inr ⟨rfl, rfl⟩⟩
      unfold emplace
      rw [found]
      dsimp only
      induction map with
      | nil => simp [Ordered.insertBefore, find_cons, itself]
      | cons first map ih =>
          unfold Ordered.insertBefore at ih ⊢
          rw [find_cons] at found
          rw [List.findIdx_cons]
          cases below : lt first.1 entry.1 with
          | true =>
              rw [below, if_pos rfl] at found
              simpa [find_cons, below] using ih found
          | false => simp [find_cons, itself]

theorem keys_modify (f : β → β) (map : List (κ × β)) :
    (modify lt key f map).map Prod.fst = map.map Prod.fst := by
  induction map with
  | nil => rfl
  | cons first map ih =>
      unfold modify
      split_ifs with below above
      · rw [List.map_cons, List.map_cons, ih]
      · rfl
      · rfl

theorem mem_modify {f : β → β} (member : entry ∈ modify lt key f map) :
    entry ∈ map ∨ ∃ value, (entry.1, value) ∈ map ∧ entry.2 = f value := by
  induction map with
  | nil => cases member
  | cons first map ih =>
      unfold modify at member
      split_ifs at member with below above
      · rcases List.mem_cons.mp member with rfl | later
        · exact .inl List.mem_cons_self
        · rcases ih later with old | ⟨value, old, edited⟩
          · exact .inl (List.mem_cons_of_mem _ old)
          · exact .inr ⟨value, List.mem_cons_of_mem _ old, edited⟩
      · exact .inl member
      · rcases List.mem_cons.mp member with rfl | later
        · exact .inr ⟨first.2, List.mem_cons_self, rfl⟩
        · exact .inl (List.mem_cons_of_mem _ later)

theorem Sorted.modify (sorted : Sorted lt map) (key : κ) (f : β → β) :
    Sorted lt (modify lt key f map) := by
  have keys : (map.map Prod.fst).Pairwise fun a b => lt a b = true :=
    List.pairwise_map.mpr sorted
  rw [← keys_modify f map] at keys
  exact List.pairwise_map.mp keys

theorem find_modify_self (f : β → β) (map : List (κ × β)) :
    find lt key (modify lt key f map) = (find lt key map).map fun entry => (entry.1, f entry.2) := by
  induction map with
  | nil => rfl
  | cons first map ih =>
      unfold modify
      rw [find_cons]
      split_ifs with below above
      · rw [find_cons, if_pos below, ih]
      · rw [find_cons, if_neg below, if_pos above]
        rfl
      · rw [find_cons, if_neg below, if_neg above]
        rfl

theorem find_modify_other {f : β → β} {other : κ} (differ : Comparable lt key other)
    (apart : ∀ entry ∈ map, Comparable lt entry.1 key ∨ entry.1 = key) :
    find lt other (modify lt key f map) = find lt other map := by
  induction map with
  | nil => rfl
  | cons first map ih =>
      obtain ⟨here, later⟩ := List.forall_mem_cons.mp apart
      unfold modify
      split_ifs with below above
      · rw [find_cons, find_cons, ih later]
      · rfl
      · have same : first.1 = key := here.resolve_left fun either => either.elim below above
        rw [find_cons, find_cons, same]
        rcases differ with smaller | larger
        · rw [if_pos smaller, if_pos smaller]
        · rw [if_pos larger, if_pos larger]

section Values
variable {γ : Type*} (g : β → γ)

theorem find_mapValues (map : List (κ × β)) :
    find lt key (map.map (Prod.map id g)) = (find lt key map).map (Prod.map id g) := by
  induction map with
  | nil => rfl
  | cons first map ih =>
      rw [List.map_cons, find_cons, find_cons, ih]
      split_ifs <;> simp_all

theorem emplace_mapValues (map : List (κ × β)) (entry : κ × β) :
    emplace lt (map.map (Prod.map id g)) (Prod.map id g entry) =
      (emplace lt map entry).map (Prod.map id g) := by
  have found : find lt entry.1 (map.map (Prod.map id g)) = _ := find_mapValues g map
  unfold emplace
  change (match find lt entry.1 (map.map (Prod.map id g)) with | some _ => _ | none => _) = _
  rw [found]
  cases find lt entry.1 map with
  | some _ => rfl
  | none =>
      change Ordered.insertBefore _ _ _ = (Ordered.insertBefore _ _ _).map _
      unfold Ordered.insertBefore
      rw [List.findIdx_map, List.map_insertIdx]
      rfl

theorem modify_mapValues {f : β → β} {f' : γ → γ} (same : ∀ value, g (f value) = f' (g value))
    (map : List (κ × β)) :
    modify lt key f' (map.map (Prod.map id g)) = (modify lt key f map).map (Prod.map id g) := by
  induction map with
  | nil => rfl
  | cons first map ih =>
      rw [List.map_cons]
      unfold modify
      rw [ih]
      simp only [Prod.map_fst, id_eq]
      split_ifs with below above
      · rfl
      · rfl
      · simp [Prod.map, same]

end Values

section Order
variable (trans : ∀ a b c, lt a b = true → lt b c = true → lt a c = true)

include trans in
theorem Sorted.insert (sorted : Sorted lt map) (missing : find lt entry.1 map = none) :
    Sorted lt (Ordered.insertBefore (fun other => !lt other.1 entry.1) entry map) := by
  refine Ordered.pairwise_insertBefore (fun a b c => trans a.1 b.1 c.1) sorted ?_ ?_
  · intro other _ notBefore
    simpa using notBefore
  · intro other first
    have apart := Option.filter_eq_none_iff.mp missing other first
    simpa using apart

include trans in
theorem Sorted.emplace (sorted : Sorted lt map) (entry : κ × β) :
    Sorted lt (emplace lt map entry) := by
  unfold OrderedMap.emplace
  split
  next => exact sorted
  next missing => exact sorted.insert trans missing

variable (irrefl : ∀ a, lt a a = false)
include irrefl

theorem find_of_mem (sorted : Sorted lt map) (member : entry ∈ map) :
    find lt entry.1 map = some entry := by
  have itself : (!lt entry.1 entry.1) = true := by rw [irrefl, Bool.not_false]
  obtain ⟨first, found⟩ := Option.isSome_iff_exists.mp
    (List.find?_isSome (p := fun other : κ × β => !lt other.1 entry.1) |>.mpr
      ⟨entry, member, itself⟩)
  have notBelow := List.find?_some found
  obtain rfl : entry = first := by
    rcases Ordered.rel_of_find?_eq_some sorted found member itself with same | below
    · exact same
    · simp [below] at notBelow
  exact Option.filter_eq_some_iff.mpr ⟨found, by simp [irrefl]⟩

section Separated
variable {keys : Set κ} (separated : keys.Pairwise (Comparable lt))
  (inside : ∀ entry ∈ map, entry.1 ∈ keys) (sorted : Sorted lt map)
include separated inside sorted

theorem find_eq_some_iff (known : key ∈ keys) :
    find lt key map = some entry ↔ entry ∈ map ∧ entry.1 = key := by
  constructor
  · intro found
    obtain ⟨member, apart⟩ := find_some found
    refine ⟨member, ?_⟩
    by_contra differ
    exact apart (separated (inside entry member) known differ)
  · rintro ⟨member, rfl⟩
    exact find_of_mem irrefl sorted member

include trans in
theorem find_emplace [DecidableEq κ] (new : entry.1 ∈ keys) (known : key ∈ keys) :
    find lt key (emplace lt map entry) =
      (find lt key map).or (if entry.1 = key then some entry else none) := by
  unfold emplace
  cases present : find lt entry.1 map with
  | some old =>
      change find lt key map = _
      by_cases same : entry.1 = key
      · rw [← same, present, Option.some_or]
      · rw [if_neg same, Option.or_none]
  | none =>
      have inside' : ∀ other ∈ Ordered.insertBefore (fun other => !lt other.1 entry.1) entry map,
          other.1 ∈ keys := by
        intro other member
        rcases Ordered.mem_insertBefore.mp member with rfl | old
        · exact new
        · exact inside other old
      have sorted' := sorted.insert trans present
      change find lt key (Ordered.insertBefore (fun other => !lt other.1 entry.1) entry map) = _
      by_cases same : entry.1 = key
      · rw [if_pos same, ← same, present, Option.none_or]
        exact find_of_mem irrefl sorted' (Ordered.mem_insertBefore.mpr (.inl rfl))
      · rw [if_neg same, Option.or_none]
        refine Option.ext fun found => ?_
        rw [find_eq_some_iff irrefl separated inside' sorted' known,
          find_eq_some_iff irrefl separated inside sorted known, Ordered.mem_insertBefore]
        refine and_congr_left fun own => or_iff_right ?_
        rintro rfl
        exact same own

include trans in
theorem find_foldl_emplace [DecidableEq κ] {entries : List (κ × β)}
    (new : ∀ entry ∈ entries, entry.1 ∈ keys) (known : key ∈ keys) :
    find lt key (entries.foldl (emplace lt) map) =
      (find lt key map).or (entries.find? fun entry => entry.1 = key) := by
  induction entries generalizing map with
  | nil => rw [List.foldl_nil, List.find?_nil, Option.or_none]
  | cons entry entries ih =>
      obtain ⟨first, rest⟩ := List.forall_mem_cons.mp new
      have inside' : ∀ other ∈ emplace lt map entry, other.1 ∈ keys := by
        intro other member
        rcases mem_of_mem_emplace member with rfl | old
        · exact first
        · exact inside other old
      rw [List.foldl_cons, ih inside' (sorted.emplace trans entry) rest,
        find_emplace trans irrefl separated inside sorted first known, Option.or_assoc,
        List.find?_cons]
      by_cases same : entry.1 = key
      · simp [same]
      · simp [same]

end Separated

end Order
end SpotGridBot.OrderedMap
