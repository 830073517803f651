import Mathlib.Data.List.Basic
import Mathlib.Tactic.ByContra

namespace SpotGridBot.JsonText

inductive Token where
  | openObject
  | closeObject
  | openArray
  | closeArray
  | colon
  | comma
  | word (chars : List Char)
  | string (chars : List Char)
deriving DecidableEq, Repr

def punctuation : Char → Option Token
  | '{' => some .openObject
  | '}' => some .closeObject
  | '[' => some .openArray
  | ']' => some .closeArray
  | ':' => some .colon
  | ',' => some .comma
  | _ => none

def isSpace (c : Char) : Bool := c == ' ' || c == '\t' || c == '\n' || c == '\r'

def escaped : Char → Option Char
  | '"' => some '"'
  | '\\' => some '\\'
  | '/' => some '/'
  | 'b' => some '\x08'
  | 'f' => some '\x0c'
  | 'n' => some '\n'
  | 'r' => some '\r'
  | 't' => some '\t'
  | _ => none

def hexDigit (c : Char) : Option ℕ :=
  if c.isDigit then some (c.toNat - '0'.toNat)
  else if 'a' ≤ c ∧ c ≤ 'f' then some (c.toNat - 'a'.toNat + 10)
  else if 'A' ≤ c ∧ c ≤ 'F' then some (c.toNat - 'A'.toNat + 10)
  else none

def Plain (c : Char) : Prop := c ≠ '"' ∧ c ≠ '\\' ∧ 0x20 ≤ c.toNat

instance (c : Char) : Decidable (Plain c) := inferInstanceAs (Decidable (_ ∧ _ ∧ _))

theorem plain_of_all {chars : List Char} (all : chars.all (fun c => decide (Plain c)) = true) :
    ∀ c ∈ chars, Plain c :=
  fun c member => of_decide_eq_true (List.all_eq_true.mp all c member)

inductive Scanner where
  | outside
  | word (read : List Char)
  | string (read : List Char)
  | escape (read : List Char)
  -- The digits after a `u`, and the high surrogate that came before it.
  | unicode (read : List Char) (high : Option ℕ) (digits : List ℕ)
  -- After a high surrogate.
  | surrogate (read : List Char) (high : ℕ)
  | surrogateEscape (read : List Char) (high : ℕ)
deriving DecidableEq, Repr

namespace Scanner

def between (c : Char) : Option (Scanner × List Token) :=
  if c = '"' then some (.string [], [])
  else if isSpace c then some (.outside, [])
  else (punctuation c).map fun token => (.outside, [token])

/-- The UTF-16 unit that four digits give. -/
def ofUnit (read : List Char) (unit : ℕ) : Option ℕ → Option Scanner
  | none =>
      if 0xD800 ≤ unit ∧ unit < 0xDC00 then some (.surrogate read unit)
      else if 0xDC00 ≤ unit ∧ unit < 0xE000 then none
      else some (.string (read ++ [Char.ofNat unit]))
  | some high =>
      if 0xDC00 ≤ unit ∧ unit < 0xE000 then
        some (.string
          (read ++ [Char.ofNat (0x10000 + (high - 0xD800) * 0x400 + (unit - 0xDC00))]))
      else none

def stepWord (read : List Char) (c : Char) : Scanner × List Token :=
  match between c with
  | some (next, tokens) => (next, .word read :: tokens)
  | none => (.word (read ++ [c]), [])

def stepString (read : List Char) (c : Char) : Option (Scanner × List Token) :=
  if c = '"' then some (.outside, [.string read])
  else if c = '\\' then some (.escape read, [])
  else if c.toNat < 0x20 then none
  else some (.string (read ++ [c]), [])

def stepEscape (read : List Char) (c : Char) : Option Scanner :=
  if c = 'u' then some (.unicode read none [])
  else (escaped c).map fun char => .string (read ++ [char])

def stepUnicode (read : List Char) (high : Option ℕ) (digits : List ℕ) (c : Char) :
    Option Scanner :=
  (hexDigit c).bind fun digit =>
    if digits.length < 3 then some (.unicode read high (digits ++ [digit]))
    else ofUnit read ((digits ++ [digit]).foldl (16 * · + ·) 0) high

def step : Scanner → Char → Option (Scanner × List Token)
  | outside, c => some ((between c).getD (.word [c], []))
  | word read, c => some (stepWord read c)
  | string read, c => stepString read c
  | escape read, c => (stepEscape read c).map (·, [])
  | unicode read high digits, c => (stepUnicode read high digits c).map (·, [])
  | surrogate read high, c => if c = '\\' then some (.surrogateEscape read high, []) else none
  | surrogateEscape read high, c =>
      if c = 'u' then some (.unicode read (some high) [], []) else none

def finish : Scanner → Option (List Token)
  | outside => some []
  | word read => some [.word read]
  | _ => none

def scan (scanner : Scanner) : List Char → Option (List Token)
  | [] => scanner.finish
  | c :: chars =>
      (scanner.step c).bind fun (next, tokens) => (scan next chars).map (tokens ++ ·)

def pending : Scanner → List Char
  | outside => []
  | word _ => []
  | string read => read
  | escape read => read
  | unicode read _ _ => read
  | surrogate read _ => read
  | surrogateEscape read _ => read

variable {c : Char} {chars rest read t : List Char} {scanner next : Scanner} {tokens : List Token}

def advance (scanner : Scanner) : List Char → Option (Scanner × List Token)
  | [] => some (scanner, [])
  | c :: chars =>
      (scanner.step c).bind fun (next, tokens) =>
        (advance next chars).map fun (last, later) => (last, tokens ++ later)

theorem scan_cons (stepped : scanner.step c = some (next, tokens)) :
    scan scanner (c :: chars) = (scan next chars).map (tokens ++ ·) := by
  rw [scan, stepped]
  rfl

theorem scan_append (advanced : advance scanner chars = some (next, tokens)) :
    scan scanner (chars ++ rest) = (scan next rest).map (tokens ++ ·) := by
  induction chars generalizing scanner tokens with
  | nil =>
      obtain ⟨rfl, rfl⟩ := Prod.mk.inj (Option.some.inj advanced)
      exact Option.map_id_apply.symm
  | cons c chars ih =>
      obtain ⟨⟨middle, first⟩, stepped, mapped⟩ := Option.bind_eq_some_iff.mp advanced
      obtain ⟨⟨last, later⟩, onward, same⟩ := Option.map_eq_some_iff.mp mapped
      obtain ⟨rfl, rfl⟩ := Prod.mk.inj same
      rw [List.cons_append, scan_cons stepped, ih onward, Option.map_map]
      exact congrArg (Option.map · _) (funext fun ts => (List.append_assoc ..).symm)

theorem scan_silent (advanced : advance scanner chars = some (next, [])) :
    scan scanner (chars ++ rest) = scan next rest :=
  (scan_append advanced).trans Option.map_id_apply

theorem advance_silent {middle : Scanner} (stepped : scanner.step c = some (middle, []))
    (advanced : advance middle chars = some (next, [])) :
    advance scanner (c :: chars) = some (next, []) := by
  unfold advance
  simp only [stepped, advanced, Option.bind_some, Option.map_some, List.append_nil]

theorem advance_plain (plain : ∀ c ∈ chars, Plain c) :
    advance (.string read) chars = some (.string (read ++ chars), []) := by
  induction chars generalizing read with
  | nil => rw [List.append_nil, advance]
  | cons c chars ih =>
      obtain ⟨⟨noQuote, noBackslash, printable⟩, later⟩ := List.forall_mem_cons.mp plain
      have first : step (.string read) c = some (.string (read ++ [c]), []) := by
        simp [step, stepString, noQuote, noBackslash, printable]
      rw [advance_silent first (ih later), List.append_assoc, List.singleton_append]

theorem advance_word (inner : ∀ c ∈ chars, between c = none) :
    advance (.word read) chars = some (.word (read ++ chars), []) := by
  induction chars generalizing read with
  | nil => rw [List.append_nil, advance]
  | cons c chars ih =>
      obtain ⟨here, later⟩ := List.forall_mem_cons.mp inner
      have first : step (.word read) c = some (.word (read ++ [c]), []) := by
        simp only [step, stepWord, here]
      rw [advance_silent first (ih later), List.append_assoc, List.singleton_append]

theorem advance_outside (inner : ∀ c ∈ chars, between c = none) (nonempty : chars ≠ []) :
    advance .outside chars = some (.word chars, []) := by
  cases chars with
  | nil => exact absurd rfl nonempty
  | cons c chars =>
      obtain ⟨here, later⟩ := List.forall_mem_cons.mp inner
      have first : step .outside c = some (.word [c], []) := by
        simp only [step, here, Option.getD_none]
      rw [advance_silent first (advance_word later), List.singleton_append]

structure Advances (scanner next : Scanner) (tokens : List Token) : Prop where
  grows : next.pending.length ≤ scanner.pending.length + 1
  ends : ∀ t, Token.string t ∈ tokens → t = scanner.pending

theorem Advances.silent (grows : next.pending.length ≤ scanner.pending.length + 1) :
    Advances scanner next [] :=
  ⟨grows, fun _ member => absurd member List.not_mem_nil⟩

theorem between_spec (found : between c = some (next, tokens)) :
    next.pending = [] ∧ ∀ t, Token.string t ∉ tokens := by
  unfold between at found
  split_ifs at found
  · obtain ⟨rfl, rfl⟩ := Prod.mk.inj (Option.some.inj found)
    exact ⟨rfl, fun t => List.not_mem_nil⟩
  · obtain ⟨rfl, rfl⟩ := Prod.mk.inj (Option.some.inj found)
    exact ⟨rfl, fun t => List.not_mem_nil⟩
  · obtain ⟨token, mark, same⟩ := Option.map_eq_some_iff.mp found
    obtain ⟨rfl, rfl⟩ := Prod.mk.inj same
    refine ⟨rfl, fun t member => ?_⟩
    obtain rfl := List.mem_singleton.mp member
    unfold punctuation at mark
    split at mark <;> cases mark

theorem stepWord_advances (stepped : stepWord read c = (next, tokens)) :
    Advances (.word read) next tokens := by
  unfold stepWord at stepped
  split at stepped
  next found =>
    obtain ⟨rfl, rfl⟩ := Prod.mk.inj stepped
    obtain ⟨empty, noString⟩ := between_spec found
    refine ⟨by simp [empty], fun t member => ?_⟩
    rcases List.mem_cons.mp member with word | later
    · cases word
    · exact absurd later (noString t)
  next =>
    obtain ⟨rfl, rfl⟩ := Prod.mk.inj stepped
    exact .silent (Nat.zero_le _)

theorem stepString_advances (stepped : stepString read c = some (next, tokens)) :
    Advances (.string read) next tokens := by
  unfold stepString at stepped
  split_ifs at stepped
  · obtain ⟨rfl, rfl⟩ := Prod.mk.inj (Option.some.inj stepped)
    exact ⟨Nat.zero_le _, fun t member => Token.string.inj (List.mem_singleton.mp member)⟩
  · obtain ⟨rfl, rfl⟩ := Prod.mk.inj (Option.some.inj stepped)
    exact .silent (Nat.le_succ _)
  · obtain ⟨rfl, rfl⟩ := Prod.mk.inj (Option.some.inj stepped)
    exact .silent (by simp [pending])

theorem stepEscape_grows (stepped : stepEscape read c = some next) :
    next.pending.length ≤ read.length + 1 := by
  unfold stepEscape at stepped
  split_ifs at stepped
  · obtain rfl := Option.some.inj stepped
    exact Nat.le_succ _
  · obtain ⟨char, -, rfl⟩ := Option.map_eq_some_iff.mp stepped
    simp [pending]

theorem ofUnit_grows {unit : ℕ} {high : Option ℕ} (found : ofUnit read unit high = some next) :
    next.pending.length ≤ read.length + 1 := by
  unfold ofUnit at found
  split at found
  · split_ifs at found
    · obtain rfl := Option.some.inj found
      exact Nat.le_succ _
    · obtain rfl := Option.some.inj found
      simp [pending]
  · split_ifs at found
    obtain rfl := Option.some.inj found
    simp [pending]

theorem stepUnicode_grows {high : Option ℕ} {digits : List ℕ}
    (stepped : stepUnicode read high digits c = some next) :
    next.pending.length ≤ read.length + 1 := by
  obtain ⟨digit, -, stepped⟩ := Option.bind_eq_some_iff.mp stepped
  split_ifs at stepped
  · obtain rfl := Option.some.inj stepped
    exact Nat.le_succ _
  · exact ofUnit_grows stepped

theorem step_advances (stepped : scanner.step c = some (next, tokens)) :
    Advances scanner next tokens := by
  cases scanner with
  | outside =>
      simp only [step, Option.some.injEq] at stepped
      cases found : between c with
      | none =>
          rw [found, Option.getD_none] at stepped
          obtain ⟨rfl, rfl⟩ := Prod.mk.inj stepped
          exact .silent (Nat.zero_le _)
      | some pair =>
          rw [found, Option.getD_some] at stepped
          obtain rfl := stepped
          obtain ⟨empty, noString⟩ := between_spec found
          exact ⟨by simp [empty], fun t member => absurd member (noString t)⟩
  | word read => exact stepWord_advances (Option.some.inj stepped)
  | string read => exact stepString_advances stepped
  | escape read =>
      obtain ⟨next', found, same⟩ := Option.map_eq_some_iff.mp stepped
      obtain ⟨rfl, rfl⟩ := Prod.mk.inj same
      exact .silent (stepEscape_grows found)
  | unicode read high digits =>
      obtain ⟨next', found, same⟩ := Option.map_eq_some_iff.mp stepped
      obtain ⟨rfl, rfl⟩ := Prod.mk.inj same
      exact .silent (stepUnicode_grows found)
  | surrogate read high =>
      simp only [step] at stepped
      split_ifs at stepped
      obtain ⟨rfl, rfl⟩ := Prod.mk.inj (Option.some.inj stepped)
      exact .silent (Nat.le_succ _)
  | surrogateEscape read high =>
      simp only [step] at stepped
      split_ifs at stepped
      obtain ⟨rfl, rfl⟩ := Prod.mk.inj (Option.some.inj stepped)
      exact .silent (Nat.le_succ _)

theorem no_string_of_brace (scanned : scan scanner ['}'] = some tokens) :
    Token.string t ∉ tokens := by
  cases scanner with
  | outside =>
      obtain rfl : [Token.closeObject] = tokens := Option.some.inj scanned
      simp
  | word read =>
      obtain rfl : [Token.word read, Token.closeObject] = tokens := Option.some.inj scanned
      simp
  | _ => cases scanned

theorem length_of_mem_scan (scanned : scan scanner (chars ++ ['}']) = some tokens)
    (member : Token.string t ∈ tokens) :
    t.length + 1 ≤ scanner.pending.length + chars.length := by
  induction chars generalizing scanner tokens with
  | nil => exact absurd member (no_string_of_brace scanned)
  | cons c chars ih =>
      obtain ⟨⟨next, first⟩, stepped, mapped⟩ := Option.bind_eq_some_iff.mp scanned
      obtain ⟨later, rest, rfl⟩ := Option.map_eq_some_iff.mp mapped
      have advances := step_advances stepped
      rw [List.length_cons]
      rcases List.mem_append.mp member with here | there
      · rw [advances.ends t here]
        omega
      · have bound := ih rest there
        have grows := advances.grows
        omega

theorem scan_literal (plain : ∀ c ∈ chars, Plain c) :
    scan (.string []) (chars ++ '"' :: rest) = (scan .outside rest).map (.string chars :: ·) := by
  have last : step (.string chars) '"' = some (.outside, [.string chars]) := rfl
  rw [scan_silent (advance_plain plain), List.nil_append, scan_cons last]
  rfl

end Scanner

def tokens (text : List Char) : Option (List Token) := Scanner.scan .outside text

section Special
variable {chars : List Char}

theorem exists_first_special (special : ¬ ∀ c ∈ chars, Plain c) :
    ∃ before c after, chars = before ++ c :: after ∧ (∀ d ∈ before, Plain d) ∧ ¬ Plain c := by
  induction chars with
  | nil => exact absurd (fun c member => absurd member List.not_mem_nil) special
  | cons c chars ih =>
      by_cases plain : Plain c
      · have later : ¬ ∀ d ∈ chars, Plain d := fun all =>
          special (List.forall_mem_cons.mpr ⟨plain, all⟩)
        obtain ⟨before, d, after, rfl, clear, found⟩ := ih later
        exact ⟨c :: before, d, after, rfl, List.forall_mem_cons.mpr ⟨plain, clear⟩, found⟩
      · exact ⟨[], c, chars, rfl, fun d member => absurd member List.not_mem_nil, plain⟩

theorem shorter_of_special {before after : List Char} {c : Char} {tokens : List Token}
    (clear : ∀ d ∈ before, Plain d) (special : ¬ Plain c)
    (scanned : Scanner.scan (.string []) (before ++ c :: (after ++ ['"', '}'])) = some tokens) :
    (c = '"' ∨ c = '\\') ∧
      ∀ t, Token.string t ∈ tokens → t.length < (before ++ c :: after).length := by
  have rest : after ++ ['"', '}'] = (after ++ ['"']) ++ ['}'] := by simp
  have size : (before ++ c :: after).length = before.length + after.length + 1 := by
    rw [List.length_append, List.length_cons, Nat.add_assoc]
  by_cases quote : c = '"'
  · subst quote
    refine ⟨.inl rfl, fun t member => ?_⟩
    rw [Scanner.scan_literal clear, rest] at scanned
    obtain ⟨later, found, rfl⟩ := Option.map_eq_some_iff.mp scanned
    rcases List.mem_cons.mp member with here | there
    · rw [Token.string.inj here]
      omega
    · have bound := Scanner.length_of_mem_scan found there
      rw [List.length_append, List.length_singleton, Scanner.pending, List.length_nil] at bound
      omega
  · rw [Scanner.scan_silent (Scanner.advance_plain clear), List.nil_append] at scanned
    by_cases backslash : c = '\\'
    · subst backslash
      refine ⟨.inr rfl, fun t member => ?_⟩
      have first : Scanner.advance (.string before) ['\\'] = some (.escape before, []) := rfl
      rw [← List.singleton_append, Scanner.scan_silent first, rest] at scanned
      have bound := Scanner.length_of_mem_scan scanned member
      rw [List.length_append, List.length_singleton, Scanner.pending] at bound
      omega
    · have control : c.toNat < 0x20 := by
        by_contra printable
        exact special ⟨quote, backslash, Nat.not_lt.mp printable⟩
      have stuck : Scanner.step (.string before) c = none := by
        simp only [Scanner.step, Scanner.stepString, quote, backslash, control, if_false, if_true]
      rw [Scanner.scan, stuck] at scanned
      cases scanned

end Special

example : tokens "\x7b\"a\\n\":[1,null]\x7d".toList = some
    [.openObject, .string ['a', '\n'], .colon, .openArray, .word ['1'], .comma,
      .word "null".toList, .closeArray, .closeObject] := by
  decide +kernel

end SpotGridBot.JsonText
