import Mathlib.Logic.Relation
import Mathlib.Data.List.Nodup
import Mathlib.Algebra.Group.Defs

namespace SpotGridBot.Paths

variable {α M : Type*} {R S : α → α → Prop} {a b c : α} {path : List α}

inductive SimplePath (R : α → α → Prop) : α → α → List α → Prop
  | single (a : α) : SimplePath R a a [a]
  | cons {a c b : α} {path : List α} (edge : R a c) (rest : SimplePath R c b path)
      (new : a ∉ path) : SimplePath R a b (a :: path)

def weight [Monoid M] (w : α → α → M) : List α → M
  | a :: b :: path => w a b * weight w (b :: path)
  | _ => 1

namespace SimplePath

theorem pair (edge : R a b) (differ : a ≠ b) : SimplePath R a b [a, b] :=
  .cons edge (.single b) (by simpa using differ)

theorem mono (weaker : ∀ a b, R a b → S a b) (simple : SimplePath R a b path) :
    SimplePath S a b path := by
  induction simple with
  | single a => exact .single a
  | cons edge rest new ih => exact .cons (weaker _ _ edge) ih new

theorem head_mem (simple : SimplePath R a b path) : a ∈ path := by
  cases simple with
  | single => exact List.mem_cons_self
  | cons edge rest new => exact List.mem_cons_self

theorem last_mem (simple : SimplePath R a b path) : b ∈ path := by
  induction simple with
  | single a => exact List.mem_cons_self
  | cons edge rest new ih => exact List.mem_cons_of_mem _ ih

theorem exists_tail (simple : SimplePath R a b path) : ∃ tail, path = a :: tail := by
  cases simple with
  | single => exact ⟨[], rfl⟩
  | cons edge rest new => exact ⟨_, rfl⟩

theorem uncons (simple : SimplePath R a b path) (differ : a ≠ b) :
    ∃ c tail, path = a :: tail ∧ R a c ∧ SimplePath R c b tail ∧ a ∉ tail := by
  cases simple with
  | single => exact absurd rfl differ
  | cons edge rest new => exact ⟨_, _, rfl, edge, rest, new⟩

theorem reaches (simple : SimplePath R a b path) : Relation.ReflTransGen R a b := by
  induction simple with
  | single a => exact .refl
  | cons edge rest new ih => exact .head edge ih

theorem from_mem (simple : SimplePath R a b path) (member : c ∈ path) :
    ∃ tail, SimplePath R c b tail ∧ tail <:+ path := by
  induction simple with
  | single a =>
      obtain rfl := List.mem_singleton.mp member
      exact ⟨_, .single c, List.suffix_rfl⟩
  | cons edge rest new ih =>
      cases List.mem_cons.mp member with
      | inl here =>
          subst here
          exact ⟨_, .cons edge rest new, List.suffix_rfl⟩
      | inr later =>
          obtain ⟨tail, simple, within⟩ := ih later
          exact ⟨tail, simple, within.trans (List.suffix_cons _ _)⟩

theorem prepend (edge : R a c) (rest : SimplePath R c b path) :
    ∃ path', SimplePath R a b path' ∧ path'.length ≤ path.length + 1 := by
  by_cases back : a ∈ path
  · obtain ⟨tail, simple, within⟩ := rest.from_mem back
    exact ⟨tail, simple, Nat.le_succ_of_le within.length_le⟩
  · exact ⟨_, .cons edge rest back, Nat.le_of_eq (List.length_cons ..)⟩

theorem of_reaches (reaches : Relation.ReflTransGen R a b) : ∃ path, SimplePath R a b path := by
  induction reaches using Relation.ReflTransGen.head_induction_on with
  | refl => exact ⟨_, .single b⟩
  | head edge rest ih =>
      obtain ⟨path, simple⟩ := ih
      obtain ⟨path', simple', -⟩ := simple.prepend edge
      exact ⟨path', simple'⟩

theorem join {x y : α} {first second : List α} (simple : SimplePath R a x first) (edge : R x y)
    (simple' : SimplePath R y b second) :
    ∃ path, SimplePath R a b path ∧ path.length ≤ first.length + second.length := by
  induction simple with
  | single a =>
      obtain ⟨path, joined, short⟩ := simple'.prepend edge
      exact ⟨path, joined, by simpa [Nat.add_comm] using short⟩
  | cons before rest new ih =>
      obtain ⟨path, joined, short⟩ := ih edge
      obtain ⟨path', joined', short'⟩ := joined.prepend before
      refine ⟨path', joined', ?_⟩
      rw [List.length_cons]
      omega

theorem two_le (simple : SimplePath R a b path) (differ : a ≠ b) : 2 ≤ path.length := by
  cases simple with
  | single => contradiction
  | cons edge rest new =>
      obtain ⟨tail, rfl⟩ := rest.exists_tail
      simp

theorem loop (simple : SimplePath R a a path) : path = [a] := by
  cases simple with
  | single => rfl
  | cons edge rest new => exact absurd rest.last_mem new

theorem avoiding {x y : α} (simple : SimplePath (fun a b => R a b ∨ a = x ∧ b = y) a b path)
    (outside : x ∉ path) : SimplePath R a b path := by
  induction simple with
  | single a => exact .single a
  | cons edge rest new ih =>
      rw [List.mem_cons, not_or] at outside
      exact .cons (edge.resolve_right fun fresh => outside.1 fresh.1.symm) (ih outside.2) new

theorem split_edge {x y : α} (simple : SimplePath (fun a b => R a b ∨ a = x ∧ b = y) a b path) :
    SimplePath R a b path ∨ ∃ first second, SimplePath R a x first ∧ SimplePath R y b second ∧
      path = first ++ second := by
  induction simple with
  | single a => exact .inl (.single a)
  | cons edge rest new ih =>
      cases edge with
      | inl old =>
          cases ih with
          | inl whole => exact .inl (.cons old whole new)
          | inr parts =>
              obtain ⟨first, second, simple, simple', rfl⟩ := parts
              have new' := fun member => new (List.mem_append_left second member)
              exact .inr ⟨_, second, .cons old simple new', simple', rfl⟩
      | inr fresh =>
          obtain ⟨rfl, rfl⟩ := fresh
          exact .inr ⟨[_], _, .single _, rest.avoiding new, rfl⟩

theorem weight_of_forall [Monoid M] {w : α → α → M} {P : M → Prop} (one : P 1)
    (mul : ∀ x y, P x → P y → P (x * y)) (each : ∀ a b, R a b → P (w a b))
    (simple : SimplePath R a b path) : P (weight w path) := by
  induction simple with
  | single a => exact one
  | cons edge rest new ih =>
      obtain ⟨tail, rfl⟩ := rest.exists_tail
      exact mul _ _ (each _ _ edge) ih

end SimplePath

def Shortest (R : α → α → Prop) (a b : α) (path : List α) : Prop :=
  SimplePath R a b path ∧ ∀ other, SimplePath R a b other → path.length ≤ other.length

namespace Shortest
variable {other : List α}

theorem of_le (shortest : Shortest R a b path) (simple : SimplePath R a b other)
    (short : other.length ≤ path.length) : Shortest R a b other :=
  ⟨simple, fun third simple' => Nat.le_trans short (shortest.2 third simple')⟩

theorem length_eq (shortest : Shortest R a b path) (shortest' : Shortest R a b other) :
    path.length = other.length :=
  Nat.le_antisymm (shortest.2 other shortest'.1) (shortest'.2 path shortest.1)

theorem single (a : α) : Shortest R a a [a] :=
  ⟨.single a, fun other simple => Nat.le_of_eq (by rw [simple.loop])⟩

theorem pair (edge : R a b) (differ : a ≠ b) : Shortest R a b [a, b] :=
  ⟨.pair edge differ, fun _ simple => simple.two_le differ⟩

theorem tail (shortest : Shortest R a b (a :: path)) (edge : R a c)
    (rest : SimplePath R c b path) : Shortest R c b path := by
  refine ⟨rest, fun other simple => ?_⟩
  obtain ⟨path', simple', short⟩ := simple.prepend edge
  have least := shortest.2 path' simple'
  rw [List.length_cons] at least
  omega

theorem iff_no_shortcut {x y : α} (shortest : Shortest R a b path) :
    Shortest (fun a b => R a b ∨ a = x ∧ b = y) a b path ↔
      ∀ first second, SimplePath R a x first → SimplePath R y b second →
        path.length ≤ first.length + second.length := by
  have more : ∀ a b, R a b → R a b ∨ a = x ∧ b = y := fun _ _ => .inl
  constructor
  · intro still first second simple simple'
    obtain ⟨joined, simple, short⟩ := (simple.mono more).join (.inr ⟨rfl, rfl⟩) (simple'.mono more)
    exact Nat.le_trans (still.2 joined simple) short
  · intro long
    refine ⟨shortest.1.mono more, fun other simple => ?_⟩
    cases simple.split_edge with
    | inl old => exact shortest.2 other old
    | inr parts =>
        obtain ⟨first, second, before, after, rfl⟩ := parts
        rw [List.length_append]
        exact long first second before after

end Shortest

end SpotGridBot.Paths
