import Mathlib.Data.List.Infix
import Mathlib.Data.List.TakeWhile

/-!
# Regular expressions that are tried by backtracking

The expressions have greedy repetitions of one character class, optional parts and groups. `parses`
lists what an engine tries, in its order; `Matches` says what there is to be found.
-/

namespace SpotGridBot

inductive Regex (α : Type*) where
  | one (p : α → Bool)
  | many (p : α → Bool)
  | seq (first second : Regex α)
  | optional (r : Regex α)
  | group (r : Regex α)

namespace Regex
variable {α : Type*}

instance : Append (Regex α) := ⟨seq⟩

def plus (p : α → Bool) : Regex α := one p ++ many p

def groups : Regex α → ℕ
  | one _ => 0
  | many _ => 0
  | seq first second => first.groups + second.groups
  | optional r => r.groups
  | group r => r.groups + 1

abbrev Captures (α : Type*) := List (Option (List α))

structure Parse (α : Type*) where
  text : List α
  captures : Captures α
  rest : List α

/-- The longest text first. -/
def repetitions (p : α → Bool) (cs : List α) : List (Parse α) :=
  (cs.takeWhile p).inits.reverse.map fun text => ⟨text, [], cs.drop text.length⟩

def parses : Regex α → List α → List (Parse α)
  | one _, [] => []
  | one p, c :: cs => if p c then [⟨[c], [], cs⟩] else []
  | many p, cs => repetitions p cs
  | seq first second, cs =>
      (first.parses cs).flatMap fun a =>
        (second.parses a.rest).map fun b =>
          ⟨a.text ++ b.text, a.captures ++ b.captures, b.rest⟩
  | optional r, cs => r.parses cs ++ [⟨[], List.replicate r.groups none, cs⟩]
  | group r, cs =>
      (r.parses cs).map fun parse => { parse with captures := some parse.text :: parse.captures }

/-- `std::regex_match`: the first way to match the whole text. -/
def matchWhole (r : Regex α) (cs : List α) : Option (Captures α) :=
  ((r.parses cs).find? fun parse => parse.rest.isEmpty).map Parse.captures

def str (captures : Captures α) (i : ℕ) : List α := (captures.getD (i - 1) none).getD []

inductive Matches : Regex α → List α → Captures α → Prop
  | one {p : α → Bool} {c : α} (here : p c = true) : Matches (one p) [c] []
  | many {p : α → Bool} {text : List α} (all : ∀ c ∈ text, p c = true) : Matches (many p) text []
  | seq {first second : Regex α} {text text' : List α} {captures captures' : Captures α}
      (before : Matches first text captures) (after : Matches second text' captures') :
      Matches (seq first second) (text ++ text') (captures ++ captures')
  | taken {r : Regex α} {text : List α} {captures : Captures α}
      (inside : Matches r text captures) : Matches (optional r) text captures
  | skipped {r : Regex α} : Matches (optional r) [] (List.replicate r.groups none)
  | group {r : Regex α} {text : List α} {captures : Captures α}
      (inside : Matches r text captures) : Matches (group r) text (some text :: captures)

theorem mem_repetitions {p : α → Bool} {cs : List α} {parse : Parse α} :
    parse ∈ repetitions p cs ↔
      cs = parse.text ++ parse.rest ∧ (∀ c ∈ parse.text, p c = true) ∧ parse.captures = [] := by
  unfold repetitions
  simp only [List.mem_map, List.mem_reverse, List.mem_inits]
  constructor
  · rintro ⟨text, isPrefix, rfl⟩
    have whole := isPrefix.trans (List.takeWhile_prefix p)
    exact ⟨(List.prefix_append_drop whole), fun c member =>
      List.mem_takeWhile_imp (isPrefix.subset member), rfl⟩
  · obtain ⟨text, captures, rest⟩ := parse
    rintro ⟨rfl, all, rfl⟩
    refine ⟨text, ?_, by simp⟩
    rw [List.takeWhile_append_of_pos all]
    exact List.prefix_append text _

theorem matches_one {p : α → Bool} {text : List α} {captures : Captures α} :
    Matches (one p) text captures ↔ ∃ c, p c = true ∧ text = [c] ∧ captures = [] := by
  constructor
  · rintro ⟨here⟩
    exact ⟨_, here, rfl, rfl⟩
  · rintro ⟨c, here, rfl, rfl⟩
    exact .one here

theorem matches_many {p : α → Bool} {text : List α} {captures : Captures α} :
    Matches (many p) text captures ↔ (∀ c ∈ text, p c = true) ∧ captures = [] := by
  constructor
  · intro inside
    cases inside with
    | many all => exact ⟨all, rfl⟩
  · rintro ⟨all, rfl⟩
    exact .many all

theorem matches_append {first second : Regex α} {text : List α} {captures : Captures α} :
    Matches (first ++ second) text captures ↔
      ∃ before after captures₁ captures₂, Matches first before captures₁ ∧
        Matches second after captures₂ ∧ text = before ++ after ∧
          captures = captures₁ ++ captures₂ := by
  constructor
  · intro inside
    cases inside with
    | seq before after => exact ⟨_, _, _, _, before, after, rfl, rfl⟩
  · rintro ⟨before, after, captures₁, captures₂, left, right, rfl, rfl⟩
    exact .seq left right

theorem matches_plus {p : α → Bool} {text : List α} {captures : Captures α} :
    Matches (plus p) text captures ↔ text ≠ [] ∧ (∀ c ∈ text, p c = true) ∧ captures = [] := by
  unfold plus
  simp only [matches_append, matches_one, matches_many]
  constructor
  · rintro ⟨_, after, _, _, ⟨c, here, rfl, rfl⟩, ⟨all, rfl⟩, rfl, rfl⟩
    exact ⟨by simp, List.forall_mem_cons.mpr ⟨here, all⟩, rfl⟩
  · rintro ⟨nonempty, all, rfl⟩
    obtain ⟨c, cs, rfl⟩ := List.exists_cons_of_ne_nil nonempty
    obtain ⟨here, all⟩ := List.forall_mem_cons.mp all
    exact ⟨[c], cs, [], [], ⟨c, here, rfl, rfl⟩, ⟨all, rfl⟩, rfl, rfl⟩

theorem matches_optional {r : Regex α} {text : List α} {captures : Captures α} :
    Matches (optional r) text captures ↔
      Matches r text captures ∨ text = [] ∧ captures = List.replicate r.groups none := by
  constructor
  · intro inside
    cases inside with
    | taken inside => exact .inl inside
    | skipped => exact .inr ⟨rfl, rfl⟩
  · rintro (inside | ⟨rfl, rfl⟩)
    · exact .taken inside
    · exact .skipped

theorem matches_group {r : Regex α} {text : List α} {captures : Captures α} :
    Matches (group r) text captures ↔
      ∃ inner, Matches r text inner ∧ captures = some text :: inner := by
  constructor
  · intro inside
    cases inside with
    | group inside => exact ⟨_, inside, rfl⟩
  · rintro ⟨inner, inside, rfl⟩
    exact .group inside

theorem mem_parses_one {p : α → Bool} {cs : List α} {parse : Parse α} :
    parse ∈ (one p).parses cs ↔
      cs = parse.text ++ parse.rest ∧ Matches (one p) parse.text parse.captures := by
  rw [matches_one]
  cases cs with
  | nil =>
      simp only [parses, List.not_mem_nil, false_iff]
      rintro ⟨whole, c, -, first, -⟩
      rw [first] at whole
      cases whole
  | cons c cs =>
      obtain ⟨text, captures, rest⟩ := parse
      unfold parses
      split
      next here =>
        rw [List.mem_singleton, Parse.mk.injEq]
        constructor
        · rintro ⟨rfl, rfl, rfl⟩
          exact ⟨rfl, c, here, rfl, rfl⟩
        · rintro ⟨whole, d, -, rfl, rfl⟩
          obtain ⟨rfl, rfl⟩ := List.cons.inj whole
          exact ⟨rfl, rfl, rfl⟩
      next other =>
        simp only [List.not_mem_nil, false_iff]
        rintro ⟨whole, d, here, rfl, -⟩
        obtain ⟨rfl, -⟩ := List.cons.inj whole
        exact other here

theorem mem_parses {r : Regex α} {cs : List α} {parse : Parse α} :
    parse ∈ r.parses cs ↔ cs = parse.text ++ parse.rest ∧ Matches r parse.text parse.captures := by
  induction r generalizing cs parse with
  | one p => exact mem_parses_one
  | many p =>
      unfold parses
      rw [mem_repetitions, matches_many]
  | seq first second ih ih' =>
      unfold parses
      simp only [List.mem_flatMap, List.mem_map, ih, ih']
      constructor
      · rintro ⟨a, ⟨whole, before⟩, b, ⟨rest, after⟩, rfl⟩
        rw [rest, ← List.append_assoc] at whole
        exact ⟨whole, .seq before after⟩
      · obtain ⟨text, captures, rest⟩ := parse
        rintro ⟨whole, inside⟩
        cases inside with
        | @seq _ _ text text' captures captures' before after =>
            have split : cs = text ++ (text' ++ rest) := whole.trans (List.append_assoc _ _ _)
            exact ⟨⟨text, captures, text' ++ rest⟩, ⟨split, before⟩,
              ⟨text', captures', rest⟩, ⟨rfl, after⟩, rfl⟩
  | optional r ih =>
      obtain ⟨text, captures, rest⟩ := parse
      unfold parses
      rw [List.mem_append, ih, List.mem_singleton, matches_optional, Parse.mk.injEq, and_or_left]
      refine or_congr_right ?_
      constructor
      · rintro ⟨rfl, rfl, rfl⟩
        exact ⟨rfl, rfl, rfl⟩
      · rintro ⟨whole, rfl, rfl⟩
        exact ⟨rfl, rfl, whole.symm⟩
  | group r ih =>
      unfold parses
      simp only [List.mem_map, ih, matches_group]
      constructor
      · rintro ⟨a, ⟨whole, inside⟩, rfl⟩
        exact ⟨whole, a.captures, inside, rfl⟩
      · obtain ⟨text, captures, rest⟩ := parse
        rintro ⟨whole, inner, inside, captured⟩
        exact ⟨⟨text, inner, rest⟩, ⟨whole, inside⟩, congrArg (Parse.mk text · rest) captured.symm⟩

theorem matches_of_matchWhole {r : Regex α} {cs : List α} {captures : Captures α}
    (found : r.matchWhole cs = some captures) : Matches r cs captures := by
  obtain ⟨parse, first, rfl⟩ := Option.map_eq_some_iff.mp found
  obtain ⟨whole, inside⟩ := mem_parses.mp (List.mem_of_find?_eq_some first)
  have done := List.find?_some first
  rw [List.isEmpty_iff.mp done, List.append_nil] at whole
  rwa [whole]

theorem matchWhole_eq_some {r : Regex α} {cs : List α} {captures : Captures α}
    (inside : Matches r cs captures)
    (unique : ∀ captures', Matches r cs captures' → captures' = captures) :
    r.matchWhole cs = some captures := by
  have tried : (⟨cs, captures, []⟩ : Parse α) ∈ r.parses cs :=
    mem_parses.mpr ⟨(List.append_nil cs).symm, inside⟩
  cases found : r.matchWhole cs with
  | some captures' => rw [unique captures' (matches_of_matchWhole found)]
  | none =>
      have none := List.find?_eq_none.mp (Option.map_eq_none_iff.mp found) _ tried
      simp at none

theorem matchWhole_eq_none {r : Regex α} {cs : List α}
    (nowhere : ∀ captures, ¬ Matches r cs captures) : r.matchWhole cs = none := by
  cases found : r.matchWhole cs with
  | none => rfl
  | some captures => exact absurd (matches_of_matchWhole found) (nowhere captures)

section Classes
variable {p : α → Bool} {cs cs' rest rest' : List α}

theorem head_append (other : ∀ c ∈ cs, p c = false) (stops : ∀ c ∈ rest.head?, p c = false) :
    ∀ c ∈ (cs ++ rest).head?, p c = false := by
  cases cs with
  | nil => exact stops
  | cons d cs =>
      intro c first
      cases first
      exact other d List.mem_cons_self

theorem nil_of_head (whole : cs ++ rest = rest') (all : ∀ c ∈ cs, p c = true)
    (stops : ∀ c ∈ rest'.head?, p c = false) : cs = [] := by
  cases cs with
  | nil => rfl
  | cons c cs =>
      have other := stops c (by rw [← whole]; rfl)
      rw [all c List.mem_cons_self] at other
      cases other

theorem cut_unique (whole : cs ++ rest = cs' ++ rest') (all : ∀ c ∈ cs, p c = true)
    (all' : ∀ c ∈ cs', p c = true) (stops : ∀ c ∈ rest.head?, p c = false)
    (stops' : ∀ c ∈ rest'.head?, p c = false) : cs = cs' ∧ rest = rest' := by
  induction cs generalizing cs' with
  | nil =>
      obtain rfl := nil_of_head whole.symm all' stops
      exact ⟨rfl, whole⟩
  | cons c cs ih =>
      cases cs' with
      | nil =>
          have empty := nil_of_head (whole.trans (List.nil_append _)) all stops'
          cases empty
      | cons c' cs' =>
          obtain ⟨rfl, later⟩ := List.cons.inj whole
          obtain ⟨rfl, same⟩ := ih later (fun c member => all c (List.mem_cons_of_mem _ member))
            fun c member => all' c (List.mem_cons_of_mem _ member)
          exact ⟨rfl, same⟩

end Classes

end Regex

end SpotGridBot
