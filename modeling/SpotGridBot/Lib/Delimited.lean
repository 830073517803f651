import Mathlib.Data.Finset.Sort
import Mathlib.Data.List.DropRight

namespace SpotGridBot.Delimited
variable {α : Type*}

def trim (space : α → Bool) (item : List α) : List α := (item.dropWhile space).rdropWhile space

def extend (delimiter : α) (text item : List α) : List α :=
  if text.isEmpty then item else text ++ delimiter :: item

def join (delimiter : α) (items : List (List α)) : List α := items.foldl (extend delimiter) []

def Clean (delimiter : α) (space : α → Bool) (item : List α) : Prop :=
  ∀ c ∈ item, c ≠ delimiter ∧ space c = false

variable {delimiter : α} {space : α → Bool} {text item : List α}

theorem Clean.nil : Clean delimiter space [] :=
  fun _ member => absurd member List.not_mem_nil

theorem Clean.cons {c : α} (first : c ≠ delimiter ∧ space c = false)
    (rest : Clean delimiter space item) : Clean delimiter space (c :: item) :=
  List.forall_mem_cons.mpr ⟨first, rest⟩

theorem Clean.append {item' : List α} (first : Clean delimiter space item)
    (second : Clean delimiter space item') : Clean delimiter space (item ++ item') :=
  List.forall_mem_append.mpr ⟨first, second⟩

theorem Clean.trim_eq (clean : Clean delimiter space item) : trim space item = item := by
  have kept {l : List α} (spaceless : ∀ c ∈ l, space c = false) : l.dropWhile space = l := by
    cases l with
    | nil => rfl
    | cons c l => rw [List.dropWhile_cons_of_neg (by simp [spaceless c])]
  unfold trim List.rdropWhile
  rw [kept fun c member => (clean c member).2,
    kept fun c member => (clean c (List.mem_reverse.mp member)).2, List.reverse_reverse]

variable [BEq α]

def tokens (delimiter : α) (space : α → Bool) (text : List α) : List (List α) :=
  ((text.splitOn delimiter).map (trim space)).filter fun token => !token.isEmpty

variable [LawfulBEq α]

theorem Clean.tokens_eq (clean : Clean delimiter space item) :
    tokens delimiter space item = if item = [] then [] else [item] := by
  have undelimited : delimiter ∉ item := fun member => (clean delimiter member).1 rfl
  unfold tokens
  rw [List.splitOn_eq_singleton undelimited, List.map_singleton, clean.trim_eq]
  cases item with
  | nil => rfl
  | cons c item => rfl

theorem tokens_extend : tokens delimiter space (extend delimiter text item) =
    tokens delimiter space text ++ tokens delimiter space item := by
  unfold extend
  split
  next first =>
    obtain rfl := List.isEmpty_iff.mp first
    rfl
  next => simp only [tokens, List.splitOn_append_cons_self, List.map_append, List.filter_append]

theorem tokens_join (items : List (List α))
    (clean : ∀ item ∈ items, Clean delimiter space item ∧ item ≠ []) :
    tokens delimiter space (join delimiter items) = items := by
  suffices ∀ text, tokens delimiter space (items.foldl (extend delimiter) text) =
      tokens delimiter space text ++ items from this []
  induction items with
  | nil => simp
  | cons item items ih =>
      intro text
      obtain ⟨first, nonempty⟩ := clean item List.mem_cons_self
      rw [List.foldl_cons, ih fun item member => clean item (List.mem_cons_of_mem _ member),
        tokens_extend, first.tokens_eq, if_neg nonempty, List.append_assoc, List.singleton_append]

section Fields
variable {mark : α} {f : List α × List α} {fields : List (List α × List α)}

def fieldText (mark : α) (f : List α × List α) : List α := f.1 ++ mark :: f.2

def fieldsText (delimiter mark : α) : List (List α × List α) → List α
  | [] => []
  | f :: fields => fieldText mark f ++ fields.flatMap fun f => delimiter :: fieldText mark f

def readField (mark : α) (text : List α) : List α × List α :=
  (text.takeWhile (· != mark), (text.dropWhile (· != mark)).tail)

def readFields (delimiter mark : α) (text : List α) : List (List α × List α) :=
  (text.splitOn delimiter).map (readField mark)

theorem readField_fieldText (unmarked : mark ∉ f.1) : readField mark (fieldText mark f) = f := by
  have inside : ∀ c ∈ f.1, (c != mark) = true := by
    intro c member
    rw [bne_iff_ne]
    rintro rfl
    exact unmarked member
  unfold readField fieldText
  rw [List.takeWhile_append_of_pos inside, List.dropWhile_append_of_pos inside,
    List.takeWhile_cons_of_neg (by simp), List.dropWhile_cons_of_neg (by simp), List.append_nil]
  rfl

theorem splitOn_fieldsText (first : delimiter ∉ fieldText mark f)
    (later : ∀ f ∈ fields, delimiter ∉ fieldText mark f) :
    (fieldsText delimiter mark (f :: fields)).splitOn delimiter =
      (f :: fields).map (fieldText mark) := by
  induction fields generalizing f with
  | nil =>
      rw [fieldsText, List.flatMap_nil, List.append_nil, List.splitOn_eq_singleton first]
      rfl
  | cons g fields ih =>
      obtain ⟨here, others⟩ := List.forall_mem_cons.mp later
      have split : fieldsText delimiter mark (f :: g :: fields) =
          fieldText mark f ++ delimiter :: fieldsText delimiter mark (g :: fields) := rfl
      rw [split, List.splitOn_append_cons_self, List.splitOn_eq_singleton first, ih here others]
      rfl

theorem readFields_fieldsText (nonempty : fields ≠ [])
    (clean : ∀ f ∈ fields, mark ∉ f.1 ∧ delimiter ∉ fieldText mark f) :
    readFields delimiter mark (fieldsText delimiter mark fields) = fields := by
  obtain ⟨f, fields, rfl⟩ := List.exists_cons_of_ne_nil nonempty
  obtain ⟨first, later⟩ := List.forall_mem_cons.mp clean
  have same : ∀ g ∈ f :: fields, readField mark (fieldText mark g) = g :=
    fun g member => readField_fieldText (clean g member).1
  rw [readFields, splitOn_fieldsText first.2 fun g member => (later g member).2, List.map_map]
  exact (List.map_congr_left same).trans (List.map_id _)

end Fields

end SpotGridBot.Delimited
