import SpotGridBot.Lib.JsonTokens
import Mathlib.Data.Int.Notation

namespace SpotGridBot.JsonText

inductive NumberState where
  | start
  | minus
  | zero
  | whole
  | point
  | fraction
  | exponent
  | exponentSign
  | exponentDigits
deriving DecidableEq, Repr

namespace NumberState

def firstDigit (c : Char) : Option NumberState :=
  if c = '0' then some zero else if c.isDigit then some whole else none

def exponentMark (c : Char) : Option NumberState :=
  if c = 'e' ∨ c = 'E' then some exponent else none

def afterWhole (c : Char) : Option NumberState :=
  if c = '.' then some point else exponentMark c

def step : NumberState → Char → Option NumberState
  | start, c => if c = '-' then some minus else firstDigit c
  | minus, c => firstDigit c
  | zero, c => afterWhole c
  | whole, c => if c.isDigit then some whole else afterWhole c
  | point, c => if c.isDigit then some fraction else none
  | fraction, c => if c.isDigit then some fraction else exponentMark c
  | exponent, c =>
      if c = '+' ∨ c = '-' then some exponentSign
      else if c.isDigit then some exponentDigits else none
  | exponentSign, c => if c.isDigit then some exponentDigits else none
  | exponentDigits, c => if c.isDigit then some exponentDigits else none

def accepts : NumberState → Bool
  | zero | whole | fraction | exponentDigits => true
  | _ => false

def accept (state : NumberState) : List Char → Bool
  | [] => state.accepts
  | c :: chars =>
      match state.step c with
      | some next => accept next chars
      | none => false

end NumberState

def isNumber (chars : List Char) : Bool := NumberState.start.accept chars

example : isNumber "-12.50e+3".toList ∧ ¬ isNumber "012".toList ∧ ¬ isNumber "1.".toList := by
  decide +kernel

def Numeric (c : Char) : Prop := c.isDigit = true ∨ c ∈ ['-', '+', '.', 'e', 'E']

section Numbers
variable {c : Char} {chars : List Char}

theorem NumberState.firstDigit_numeric {next : NumberState} (found : firstDigit c = some next) :
    Numeric c := by
  unfold firstDigit at found
  split_ifs at found with zero digit
  · subst zero
    exact .inl rfl
  · exact .inl digit

theorem NumberState.exponentMark_numeric {next : NumberState}
    (found : exponentMark c = some next) : Numeric c := by
  unfold exponentMark at found
  split_ifs at found with mark
  rcases mark with rfl | rfl
  · exact .inr (by decide)
  · exact .inr (by decide)

theorem NumberState.afterWhole_numeric {next : NumberState} (found : afterWhole c = some next) :
    Numeric c := by
  unfold afterWhole at found
  split_ifs at found with dot
  · subst dot
    exact .inr (by decide)
  · exact exponentMark_numeric found

theorem NumberState.step_numeric {state next : NumberState} (stepped : state.step c = some next) :
    Numeric c := by
  cases state with
  | start =>
      simp only [step] at stepped
      split_ifs at stepped with minus
      · subst minus
        exact .inr (by decide)
      · exact firstDigit_numeric stepped
  | minus => exact firstDigit_numeric stepped
  | zero => exact afterWhole_numeric stepped
  | whole =>
      simp only [step] at stepped
      split_ifs at stepped with digit
      · exact .inl digit
      · exact afterWhole_numeric stepped
  | fraction =>
      simp only [step] at stepped
      split_ifs at stepped with digit
      · exact .inl digit
      · exact exponentMark_numeric stepped
  | exponent =>
      simp only [step] at stepped
      split_ifs at stepped with sign digit
      · rcases sign with rfl | rfl
        · exact .inr (by decide)
        · exact .inr (by decide)
      · exact .inl digit
  | _ =>
      simp only [step] at stepped
      split_ifs at stepped with digit
      exact .inl digit

theorem NumberState.accept_numeric {state : NumberState} (accepted : state.accept chars = true) :
    ∀ c ∈ chars, Numeric c := by
  induction chars generalizing state with
  | nil => exact fun c member => absurd member List.not_mem_nil
  | cons c chars ih =>
      unfold accept at accepted
      split at accepted
      next next stepped =>
        exact List.forall_mem_cons.mpr ⟨step_numeric stepped, ih accepted⟩
      next => cases accepted

theorem isNumber_numeric (number : isNumber chars = true) : ∀ c ∈ chars, Numeric c :=
  NumberState.accept_numeric number

theorem Numeric.not_punctuation (numeric : Numeric c) : punctuation c = none := by
  unfold punctuation
  split
  all_goals first | rfl | (exfalso; revert numeric; unfold Numeric; decide)

theorem Numeric.ne {d : Char} (numeric : Numeric c) (other : ¬ Numeric d) : c ≠ d := by
  rintro rfl
  exact other numeric

instance (c : Char) : Decidable (Numeric c) := inferInstanceAs (Decidable (_ ∨ _))

theorem Numeric.plain (numeric : Numeric c) : c ≠ '"' ∧ c ≠ '\\' :=
  ⟨numeric.ne (by decide), numeric.ne (by decide)⟩

theorem Numeric.between (numeric : Numeric c) : Scanner.between c = none := by
  have noSpace : isSpace c = false := by
    have blank := numeric.ne (d := ' ') (by decide)
    have tab := numeric.ne (d := '\t') (by decide)
    have line := numeric.ne (d := '\n') (by decide)
    have carriage := numeric.ne (d := '\r') (by decide)
    simp [isSpace, blank, tab, line, carriage]
  simp [Scanner.between, numeric.plain.1, noSpace, numeric.not_punctuation]

theorem accept_digits (digits : ∀ c ∈ chars, c.isDigit = true) :
    NumberState.whole.accept chars = true := by
  induction chars with
  | nil => rfl
  | cons c chars ih =>
      obtain ⟨digit, later⟩ := List.forall_mem_cons.mp digits
      have first : NumberState.whole.step c = some .whole := by
        simp only [NumberState.step, digit, if_true]
      simp only [NumberState.accept, first]
      exact ih later

theorem toDigits_leading (n : ℕ) (positive : 0 < n) :
    ∃ c chars, Nat.toDigits 10 n = c :: chars ∧ c ≠ '0' := by
  induction n using Nat.base_induction 10 (by decide) with
  | single m small =>
      have leading : ∀ m < 10, 0 < m → Nat.digitChar m ≠ '0' := by decide
      exact ⟨Nat.digitChar m, [], Nat.toDigits_of_lt_base small, leading m small positive⟩
  | digit m k small more ih =>
      obtain ⟨c, chars, first, leading⟩ := ih more
      refine ⟨c, chars ++ Nat.toDigits 10 k, ?_, leading⟩
      rw [← Nat.toDigits_append_toDigits (by decide) more small, first, List.cons_append]

theorem accept_toDigits (n : ℕ) : NumberState.start.accept (Nat.toDigits 10 n) = true ∧
    NumberState.minus.accept (Nat.toDigits 10 n) = true := by
  have digits : ∀ c ∈ Nat.toDigits 10 n, c.isDigit = true := fun c member =>
    Nat.isDigit_of_mem_toDigits (by decide) (by decide) member
  rcases Nat.eq_zero_or_pos n with rfl | positive
  · rw [Nat.toDigits_zero]
    exact ⟨rfl, rfl⟩
  · obtain ⟨c, chars, same, leading⟩ := toDigits_leading n positive
    rw [same] at digits ⊢
    obtain ⟨digit, later⟩ := List.forall_mem_cons.mp digits
    have first : NumberState.firstDigit c = some .whole := by
      simp only [NumberState.firstDigit, leading, digit, if_false, if_true]
    have unsigned : c ≠ '-' := by
      rintro rfl
      cases digit
    constructor
    · simp only [NumberState.accept, NumberState.step, unsigned, if_false, first]
      exact accept_digits later
    · simp only [NumberState.accept, NumberState.step, first]
      exact accept_digits later

theorem toList_ofNat (n : ℕ) : (toString (Int.ofNat n)).toList = Nat.toDigits 10 n :=
  String.toList_ofList

theorem toList_negSucc (n : ℕ) :
    (toString (Int.negSucc n)).toList = '-' :: Nat.toDigits 10 (n + 1) := by
  have digits : (Nat.repr (n + 1)).toList = Nat.toDigits 10 (n + 1) := String.toList_ofList
  rw [← digits]
  exact String.toList_append

theorem isNumber_toString (n : ℤ) : isNumber (toString n).toList = true := by
  cases n with
  | ofNat n =>
      rw [toList_ofNat]
      exact (accept_toDigits n).1
  | negSucc n =>
      rw [toList_negSucc]
      exact (accept_toDigits (n + 1)).2

end Numbers

structure Reader (α : Type*) where
  null : α
  bool : Bool → α
  number : List Char → α
  string : List Char → α
  array : List α → α
  object : List (List Char × α) → α

inductive Frame (α : Type*) where
  | array (elements : List α)
  | object (members : List (List Char × α)) (key : List Char)

inductive Builder (α : Type*) where
  | value (frames : List (Frame α))
  | arrayStart (frames : List (Frame α))
  | afterElement (elements : List α) (frames : List (Frame α))
  | objectStart (frames : List (Frame α))
  | key (members : List (List Char × α)) (frames : List (Frame α))
  | colon (members : List (List Char × α)) (key : List Char) (frames : List (Frame α))
  | afterMember (members : List (List Char × α)) (frames : List (Frame α))
  | done (value : α)

section Read
variable {α : Type*} (r : Reader α)

def Reader.word (chars : List Char) : Option α :=
  if chars = "null".toList then some r.null
  else if chars = "true".toList then some (r.bool true)
  else if chars = "false".toList then some (r.bool false)
  else if isNumber chars then some (r.number chars)
  else none

theorem Reader.word_of_isNumber {chars : List Char} (number : isNumber chars = true) :
    r.word chars = some (r.number chars) := by
  have null : chars ≠ "null".toList := by
    rintro rfl
    cases number
  have yes : chars ≠ "true".toList := by
    rintro rfl
    cases number
  have no : chars ≠ "false".toList := by
    rintro rfl
    cases number
  simp only [Reader.word, null, yes, no, number, if_false, if_true]

namespace Builder

def put (result : α) : List (Frame α) → Builder α
  | [] => .done result
  | .array elements :: frames => .afterElement (elements ++ [result]) frames
  | .object members name :: frames => .afterMember (members ++ [(name, result)]) frames

def begin (token : Token) (frames : List (Frame α)) : Option (Builder α) :=
  match token with
  | .openObject => some (.objectStart frames)
  | .openArray => some (.arrayStart frames)
  | .string chars => some (put (r.string chars) frames)
  | .word chars => (r.word chars).map fun result => put result frames
  | _ => none

def step : Builder α → Token → Option (Builder α)
  | value frames, token => begin r token frames
  | arrayStart frames, token =>
      if token = .closeArray then some (put (r.array []) frames)
      else begin r token (.array [] :: frames)
  | afterElement elements frames, .comma => some (.value (.array elements :: frames))
  | afterElement elements frames, .closeArray => some (put (r.array elements) frames)
  | objectStart frames, .closeObject => some (put (r.object []) frames)
  | objectStart frames, .string name => some (.colon [] name frames)
  | key members frames, .string name => some (.colon members name frames)
  | colon members name frames, .colon => some (.value (.object members name :: frames))
  | afterMember members frames, .comma => some (.key members frames)
  | afterMember members frames, .closeObject => some (put (r.object members) frames)
  | _, _ => none

def build : Builder α → List Token → Option α
  | done result, [] => some result
  | _, [] => none
  | builder, token :: tokens => (step r builder token).bind fun next => build next tokens

end Builder

def read (text : List Char) : Option α := (tokens text).bind (Builder.build r (.value []))

structure Reader.Hereditary (P : α → Prop) : Prop where
  null : P r.null
  bool : ∀ b, P (r.bool b)
  number : ∀ chars, isNumber chars = true → P (r.number chars)
  array : ∀ elements, (∀ element ∈ elements, P element) → P (r.array elements)
  object : ∀ members, (∀ member ∈ members, P member.2) → P (r.object members)

def Frame.All (P : α → Prop) : Frame α → Prop
  | .array elements => ∀ element ∈ elements, P element
  | .object members _ => ∀ member ∈ members, P member.2

def Builder.All (P : α → Prop) : Builder α → Prop
  | .value frames => ∀ frame ∈ frames, frame.All P
  | .arrayStart frames => ∀ frame ∈ frames, frame.All P
  | .afterElement elements frames =>
      (∀ element ∈ elements, P element) ∧ ∀ frame ∈ frames, frame.All P
  | .objectStart frames => ∀ frame ∈ frames, frame.All P
  | .key members frames => (∀ member ∈ members, P member.2) ∧ ∀ frame ∈ frames, frame.All P
  | .colon members _ frames => (∀ member ∈ members, P member.2) ∧ ∀ frame ∈ frames, frame.All P
  | .afterMember members frames =>
      (∀ member ∈ members, P member.2) ∧ ∀ frame ∈ frames, frame.All P
  | .done result => P result

variable {r} {P : α → Prop} {frames : List (Frame α)}

theorem Reader.Hereditary.word (inherits : r.Hereditary P) {chars : List Char} {result : α}
    (found : r.word chars = some result) : P result := by
  unfold Reader.word at found
  split_ifs at found with null yes no number
  · exact Option.some.inj found ▸ inherits.null
  · exact Option.some.inj found ▸ inherits.bool true
  · exact Option.some.inj found ▸ inherits.bool false
  · exact Option.some.inj found ▸ inherits.number chars number

namespace Builder

theorem all_put {result : α} (here : P result) (opened : ∀ frame ∈ frames, frame.All P) :
    (put result frames).All P := by
  cases frames with
  | nil => exact here
  | cons frame frames =>
      obtain ⟨inner, outer⟩ := List.forall_mem_cons.mp opened
      cases frame with
      | array elements =>
          exact ⟨List.forall_mem_append.mpr ⟨inner, List.forall_mem_singleton.mpr here⟩, outer⟩
      | object members name =>
          exact ⟨List.forall_mem_append.mpr ⟨inner, List.forall_mem_singleton.mpr here⟩, outer⟩

theorem all_begin (inherits : r.Hereditary P) {token : Token}
    (strings : ∀ chars, token = .string chars → P (r.string chars))
    (opened : ∀ frame ∈ frames, frame.All P) {next : Builder α}
    (begun : begin r token frames = some next) : next.All P := by
  unfold begin at begun
  split at begun
  · obtain rfl := Option.some.inj begun
    exact opened
  · obtain rfl := Option.some.inj begun
    exact opened
  next chars =>
    obtain rfl := Option.some.inj begun
    exact all_put (strings chars rfl) opened
  next chars =>
    obtain ⟨result, found, rfl⟩ := Option.map_eq_some_iff.mp begun
    exact all_put (inherits.word found) opened
  · cases begun

theorem all_step (inherits : r.Hereditary P) {token : Token}
    (strings : ∀ chars, token = .string chars → P (r.string chars)) {builder next : Builder α}
    (holds : builder.All P) (stepped : step r builder token = some next) : next.All P := by
  have none : ∀ x ∈ ([] : List (List Char × α)), P x.2 := fun x member =>
    absurd member List.not_mem_nil
  have empty : ∀ x ∈ ([] : List α), P x := fun x member => absurd member List.not_mem_nil
  unfold step at stepped
  split at stepped
  · exact all_begin inherits strings holds stepped
  · split_ifs at stepped
    · obtain rfl := Option.some.inj stepped
      exact all_put (inherits.array [] empty) holds
    · have innermost : Frame.All P (.array []) := empty
      exact all_begin inherits strings (List.forall_mem_cons.mpr ⟨innermost, holds⟩) stepped
  · obtain rfl := Option.some.inj stepped
    exact List.forall_mem_cons.mpr holds
  · obtain rfl := Option.some.inj stepped
    exact all_put (inherits.array _ holds.1) holds.2
  · obtain rfl := Option.some.inj stepped
    exact all_put (inherits.object [] none) holds
  · obtain rfl := Option.some.inj stepped
    exact ⟨none, holds⟩
  · obtain rfl := Option.some.inj stepped
    exact holds
  · obtain rfl := Option.some.inj stepped
    exact List.forall_mem_cons.mpr holds
  · obtain rfl := Option.some.inj stepped
    exact holds
  · obtain rfl := Option.some.inj stepped
    exact all_put (inherits.object _ holds.1) holds.2
  · cases stepped

theorem all_build (inherits : r.Hereditary P) {tokens : List Token}
    (strings : ∀ chars, Token.string chars ∈ tokens → P (r.string chars)) {builder : Builder α}
    (holds : builder.All P) {result : α} (built : build r builder tokens = some result) :
    P result := by
  induction tokens generalizing builder with
  | nil =>
      cases builder with
      | done found => exact Option.some.inj built ▸ holds
      | _ => cases built
  | cons token tokens ih =>
      obtain ⟨next, stepped, rest⟩ : ∃ next, step r builder token = some next ∧
          build r next tokens = some result := by
        cases builder <;> exact Option.bind_eq_some_iff.mp built
      have here : ∀ chars, token = .string chars → P (r.string chars) := fun chars same =>
        strings chars (same ▸ List.mem_cons_self)
      have later : ∀ chars, Token.string chars ∈ tokens → P (r.string chars) :=
        fun chars member => strings chars (List.mem_cons_of_mem _ member)
      exact ih later (all_step inherits here holds stepped) rest

end Builder

end Read

end SpotGridBot.JsonText
