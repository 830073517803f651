import Mathlib.Data.List.Flatten
import Mathlib.Data.List.Nodup

namespace SpotGridBot.Forest

inductive RoseTree (α : Type*) where
  | node (label : α) (children : List (RoseTree α))

variable {α κ : Type*}

def RoseTree.label : RoseTree α → α
  | .node label _ => label

def RoseTree.children : RoseTree α → List (RoseTree α)
  | .node _ children => children

mutual
def RoseTree.preorder : RoseTree α → List (RoseTree α)
  | .node label children => .node label children :: preorder children

def preorder : List (RoseTree α) → List (RoseTree α)
  | [] => []
  | tree :: forest => tree.preorder ++ preorder forest
end

theorem RoseTree.preorder_eq (tree : RoseTree α) :
    tree.preorder = tree :: Forest.preorder tree.children := by
  cases tree
  rfl

theorem preorder_eq_flatMap (forest : List (RoseTree α)) :
    preorder forest = forest.flatMap RoseTree.preorder := by
  induction forest with
  | nil => rfl
  | cons tree forest ih =>
      rw [List.flatMap_cons, ← ih]
      rfl

theorem mem_preorder {forest : List (RoseTree α)} {tree : RoseTree α} (member : tree ∈ forest) :
    tree ∈ preorder forest := by
  rw [preorder_eq_flatMap]
  refine List.mem_flatMap.mpr ⟨tree, member, ?_⟩
  rw [tree.preorder_eq]
  exact List.mem_cons_self

theorem mem_preorder_of_child {tree t : RoseTree α} (member : t ∈ preorder tree.children) :
    t ∈ tree.preorder := by
  rw [tree.preorder_eq]
  exact List.mem_cons_of_mem tree member

theorem disjoint_of_nodup {forest : List (RoseTree α)} (distinct : (preorder forest).Nodup) :
    forest.Pairwise fun tree tree' => tree.preorder.Disjoint tree'.preorder := by
  rw [preorder_eq_flatMap] at distinct
  exact (List.nodup_flatMap.mp distinct).2

theorem nodup_children {forest : List (RoseTree α)} (distinct : (preorder forest).Nodup)
    {tree : RoseTree α} (member : tree ∈ forest) : (preorder tree.children).Nodup := by
  rw [preorder_eq_flatMap] at distinct
  have whole := (List.nodup_flatMap.mp distinct).1 tree member
  rw [tree.preorder_eq] at whole
  exact (List.nodup_cons.mp whole).2

variable (named : κ → α → Bool)

def carrying (key : κ) (forest : List (RoseTree α)) : List (RoseTree α) :=
  forest.filter fun tree => named key tree.label

inductive Reached : List κ → List (RoseTree α) → RoseTree α → Prop
  | last {key : κ} {forest : List (RoseTree α)} {tree : RoseTree α} (member : tree ∈ forest)
      (carries : named key tree.label = true) : Reached [key] forest tree
  | child {key : κ} {path : List κ} {forest : List (RoseTree α)} {parent tree : RoseTree α}
      (member : parent ∈ forest) (carries : named key parent.label = true)
      (below : Reached path parent.children tree) : Reached (key :: path) forest tree

def follow : List κ → List (RoseTree α) → List (RoseTree α)
  | [], _ => []
  | [key], forest => carrying named key forest
  | key :: key' :: path, forest =>
      (carrying named key forest).flatMap fun tree => follow (key' :: path) tree.children

variable {named}

theorem mem_carrying {key : κ} {forest : List (RoseTree α)} {tree : RoseTree α} :
    tree ∈ carrying named key forest ↔ tree ∈ forest ∧ named key tree.label = true :=
  List.mem_filter

theorem carrying_cons_of_pos {key : κ} {tree : RoseTree α} {forest : List (RoseTree α)}
    (carries : named key tree.label = true) :
    carrying named key (tree :: forest) = tree :: carrying named key forest :=
  List.filter_cons_of_pos carries

theorem carrying_cons_of_neg {key : κ} {tree : RoseTree α} {forest : List (RoseTree α)}
    (other : ¬ named key tree.label = true) :
    carrying named key (tree :: forest) = carrying named key forest :=
  List.filter_cons_of_neg other

theorem follow_of_missing {key : κ} {forest : List (RoseTree α)}
    (missing : carrying named key forest = []) (path : List κ) :
    follow named (key :: path) forest = [] := by
  cases path with
  | nil => exact missing
  | cons key' path =>
      unfold follow
      rw [missing, List.flatMap_nil]

theorem mem_follow {path : List κ} {forest : List (RoseTree α)} {tree : RoseTree α} :
    tree ∈ follow named path forest ↔ Reached named path forest tree := by
  induction path generalizing forest with
  | nil =>
      constructor
      · intro member
        cases member
      · intro reached
        cases reached
  | cons key path ih =>
      cases path with
      | nil =>
          constructor
          · intro member
            obtain ⟨member, carries⟩ := mem_carrying.mp member
            exact .last member carries
          · intro reached
            cases reached with
            | last member carries => exact mem_carrying.mpr ⟨member, carries⟩
            | child _ _ below => cases below
      | cons key' path =>
          unfold follow
          rw [List.mem_flatMap]
          constructor
          · rintro ⟨parent, member, below⟩
            obtain ⟨member, carries⟩ := mem_carrying.mp member
            exact .child member carries (ih.mp below)
          · intro reached
            cases reached with
            | child member carries below =>
                exact ⟨_, mem_carrying.mpr ⟨member, carries⟩, ih.mpr below⟩

theorem carrying_sublist (key : κ) (forest : List (RoseTree α)) :
    (carrying named key forest).Sublist (preorder forest) := by
  refine List.filter_sublist.trans ?_
  induction forest with
  | nil => exact List.Sublist.slnil
  | cons tree forest ih =>
      have here : [tree].Sublist tree.preorder := by
        rw [tree.preorder_eq]
        exact List.cons_sublist_cons.mpr (List.nil_sublist _)
      exact here.append ih

theorem follow_sublist (path : List κ) (forest : List (RoseTree α)) :
    (follow named path forest).Sublist (preorder forest) := by
  induction path generalizing forest with
  | nil => exact List.nil_sublist _
  | cons key path ih =>
      cases path with
      | nil => exact carrying_sublist key forest
      | cons key' path =>
          unfold follow
          rw [preorder_eq_flatMap]
          have below : ∀ tree : RoseTree α,
              (follow named (key' :: path) tree.children).Sublist tree.preorder := by
            intro tree
            rw [tree.preorder_eq]
            exact (ih tree.children).cons tree
          exact (List.Sublist.flatMap_right _ fun tree _ => below tree).trans
            (List.filter_sublist.flatMap RoseTree.preorder)

theorem eq_of_sublist {l l' m : List α} (distinct : m.Nodup) (sub : l.Sublist m)
    (sub' : l'.Sublist m) (same : ∀ a, a ∈ l ↔ a ∈ l') : l = l' := by
  induction m generalizing l l' with
  | nil => rw [List.sublist_nil.mp sub, List.sublist_nil.mp sub']
  | cons b m ih =>
      obtain ⟨new, distinct⟩ := List.nodup_cons.mp distinct
      cases sub with
      | cons _ sub =>
          cases sub' with
          | cons _ sub' => exact ih distinct sub sub' same
          | cons_cons _ sub' => exact absurd (sub.subset ((same b).mpr List.mem_cons_self)) new
      | cons_cons _ sub =>
          cases sub' with
          | cons _ sub' => exact absurd (sub'.subset ((same b).mp List.mem_cons_self)) new
          | cons_cons _ sub' =>
              rw [ih distinct sub sub' fun a => ?_]
              have whole := same a
              rw [List.mem_cons, List.mem_cons] at whole
              constructor
              · intro member
                exact (whole.mp (.inr member)).resolve_left fun here =>
                  new (here ▸ sub.subset member)
              · intro member
                exact (whole.mpr (.inr member)).resolve_left fun here =>
                  new (here ▸ sub'.subset member)

end SpotGridBot.Forest
