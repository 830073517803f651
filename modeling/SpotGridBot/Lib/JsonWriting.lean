import SpotGridBot.Lib.JsonReader

namespace SpotGridBot.JsonText

section Spelling
variable {text text' chars : List Char} {spelled spelled' : List Token}

def Spells (text : List Char) (spelled : List Token) : Prop :=
  ∀ rest, Scanner.scan .outside (text ++ rest) =
    (Scanner.scan .outside rest).map (spelled ++ ·)

theorem spells_of_advance (advanced : Scanner.advance .outside text = some (.outside, spelled)) :
    Spells text spelled :=
  fun _ => Scanner.scan_append advanced

theorem Spells.append (first : Spells text spelled) (second : Spells text' spelled') :
    Spells (text ++ text') (spelled ++ spelled') := by
  intro rest
  rw [List.append_assoc, first, second, Option.map_map]
  exact congrArg (Option.map · _) (funext fun later => (List.append_assoc ..).symm)

theorem spells_string (plain : ∀ c ∈ chars, Plain c) :
    Spells ('"' :: chars ++ ['"']) [.string chars] := by
  intro rest
  have opened : Scanner.step .outside '"' = some (.string [], []) := rfl
  rw [List.cons_append, List.cons_append, Scanner.scan_cons opened, List.append_assoc,
    List.singleton_append, Scanner.scan_literal plain, Option.map_map]
  exact congrArg (Option.map · _) (funext fun _ => rfl)

end Spelling

section Building
variable {α : Type*} {r : Reader α} {spelled : List Token} {value : α}

def Builds (r : Reader α) (spelled : List Token) (value : α) : Prop :=
  ∀ frames rest, Builder.build r (.value frames) (spelled ++ rest) =
    Builder.build r (Builder.put value frames) rest

theorem builds_string (chars : List Char) : Builds r [.string chars] (r.string chars) :=
  fun _ _ => rfl

theorem builds_word {chars : List Char} (word : r.word chars = some value) :
    Builds r [.word chars] value := by
  intro frames rest
  simp only [List.singleton_append, Builder.build, Builder.step, Builder.begin, word,
    Option.map_some, Option.bind_some]

structure Member (α : Type*) where
  name : List Char
  spelled : List Token
  value : α

def laterTokens : List (Member α) → List Token
  | [] => [.closeObject]
  | m :: members => .comma :: .string m.name :: .colon :: (m.spelled ++ laterTokens members)

def objectTokens : List (Member α) → List Token
  | [] => [.openObject, .closeObject]
  | m :: members => .openObject :: .string m.name :: .colon :: (m.spelled ++ laterTokens members)

def named (members : List (Member α)) : List (List Char × α) :=
  members.map fun m => (m.name, m.value)

theorem build_later {members : List (Member α)}
    (each : ∀ m ∈ members, Builds r m.spelled m.value) (before : List (List Char × α))
    (frames : List (Frame α)) (rest : List Token) :
    Builder.build r (.afterMember before frames) (laterTokens members ++ rest) =
      Builder.build r (Builder.put (r.object (before ++ named members)) frames) rest := by
  induction members generalizing before with
  | nil =>
      have all : before ++ named ([] : List (Member α)) = before := List.append_nil before
      rw [all]
      rfl
  | cons m members ih =>
      obtain ⟨here, later⟩ := List.forall_mem_cons.mp each
      have reads : Builder.build r (.afterMember before frames)
          (laterTokens (m :: members) ++ rest) =
          Builder.build r (.value (.object before m.name :: frames))
            (m.spelled ++ (laterTokens members ++ rest)) := by
        rw [← List.append_assoc]
        rfl
      have after := ih later (before ++ [(m.name, m.value)])
      rw [List.append_assoc] at after
      rw [reads, here]
      exact after

theorem builds_object {members : List (Member α)}
    (each : ∀ m ∈ members, Builds r m.spelled m.value) :
    Builds r (objectTokens members) (r.object (named members)) := by
  intro frames rest
  cases members with
  | nil => rfl
  | cons m members =>
      obtain ⟨here, later⟩ := List.forall_mem_cons.mp each
      have reads : Builder.build r (.value frames) (objectTokens (m :: members) ++ rest) =
          Builder.build r (.value (.object [] m.name :: frames))
            (m.spelled ++ (laterTokens members ++ rest)) := by
        rw [← List.append_assoc]
        rfl
      rw [reads, here]
      exact build_later later [(m.name, m.value)] frames rest

theorem read_of_spells {text : List Char} (spells : Spells text spelled)
    (builds : Builds r spelled value) : read r text = some value := by
  have scanned : tokens text = some spelled := by
    have whole := spells []
    rw [List.append_nil] at whole
    rw [tokens, whole]
    exact congrArg some (List.append_nil spelled)
  have built := builds [] []
  rw [List.append_nil] at built
  rw [read, scanned, Option.bind_some, built]
  rfl

end Building

section Strings
variable {α : Type*} (r : Reader α)

def memberText (member : List Char × List Char) : List Char :=
  '"' :: member.1 ++ ['"'] ++ (':' :: '"' :: member.2 ++ ['"'])

def laterText : List (List Char × List Char) → List Char
  | [] => ['\x7d']
  | member :: members => ',' :: memberText member ++ laterText members

def objectText : List (List Char × List Char) → List Char
  | [] => ['\x7b', '\x7d']
  | member :: members => '\x7b' :: memberText member ++ laterText members

def stringMember (member : List Char × List Char) : Member α where
  name := member.1
  spelled := [.string member.2]
  value := r.string member.2

def AllPlain (members : List (List Char × List Char)) : Prop :=
  ∀ member ∈ members, (∀ c ∈ member.1, Plain c) ∧ ∀ c ∈ member.2, Plain c

variable {r}

theorem spells_member {member : List Char × List Char} (name : ∀ c ∈ member.1, Plain c)
    (value : ∀ c ∈ member.2, Plain c) :
    Spells (memberText member) [.string member.1, .colon, .string member.2] := by
  have colon : Spells [':'] [.colon] := spells_of_advance rfl
  exact (spells_string name).append (colon.append (spells_string value))

theorem spells_later {members : List (List Char × List Char)} (plain : AllPlain members) :
    Spells (laterText members) (laterTokens (members.map (stringMember r))) := by
  induction members with
  | nil => exact spells_of_advance rfl
  | cons member members ih =>
      obtain ⟨⟨name, value⟩, later⟩ := List.forall_mem_cons.mp plain
      have comma : Spells [','] [.comma] := spells_of_advance rfl
      exact (comma.append (spells_member name value)).append (ih later)

theorem spells_object {members : List (List Char × List Char)} (plain : AllPlain members) :
    Spells (objectText members) (objectTokens (members.map (stringMember r))) := by
  cases members with
  | nil => exact spells_of_advance rfl
  | cons member members =>
      obtain ⟨⟨name, value⟩, later⟩ := List.forall_mem_cons.mp plain
      have bracket : Spells ['\x7b'] [.openObject] := spells_of_advance rfl
      exact (bracket.append (spells_member name value)).append (spells_later later)

theorem read_objectText {members : List (List Char × List Char)} (plain : AllPlain members) :
    read r (objectText members) =
      some (r.object (members.map fun member => (member.1, r.string member.2))) := by
  have builds : Builds r (objectTokens (members.map (stringMember r)))
      (r.object (named (members.map (stringMember r)))) := by
    apply builds_object
    intro m member
    obtain ⟨pair, -, rfl⟩ := List.mem_map.mp member
    exact builds_string pair.2
  rw [read_of_spells (spells_object plain) builds, named, List.map_map]
  rfl

end Strings

end SpotGridBot.JsonText
