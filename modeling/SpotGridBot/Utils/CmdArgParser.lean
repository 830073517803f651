import Mathlib.Data.List.Basic

namespace SpotGridBot.Utils

abbrev Text := List Char

structure Argument where
  argShort : Text
  argLong : Text
  hasVal : Bool
  value : Text := []
  parsed : Bool := false

/-- The pointers of `m_argNames` are places in `m_args`. -/
structure CmdArgParser where
  parsed : Bool := false
  flagCounter : ℕ := 0
  execName : Text := []
  args : List Argument := []
  argNames : Text → Option ℕ := fun _ => none
  textArgs : List Text := []

namespace CmdArgParser

/-- `map::insert`: a name that is there keeps its argument. -/
def insertName (name : Text) (ix : ℕ) (argNames : Text → Option ℕ) : Text → Option ℕ :=
  fun other =>
    match argNames other with
    | some known => some known
    | none => if other = name then some ix else none

def setArgument (parser : CmdArgParser) (argShort argLong : Text) (hasVal : Bool) : CmdArgParser :=
  let ix := parser.args.length
  let argNames := parser.argNames
  let argNames := if argShort ≠ [] then insertName argShort ix argNames else argNames
  let argNames := if argLong ≠ [] then insertName argLong ix argNames else argNames
  { parser with
    args := parser.args ++ [⟨argShort, argLong, hasVal, [], false⟩]
    argNames := argNames }

variable (parser : CmdArgParser)

def hasVal (ix : ℕ) : Bool := (parser.args[ix]?.map Argument.hasVal).getD false

def value (ix : ℕ) : Option Text := parser.args[ix]?.map Argument.value

def flagParsed (ix : ℕ) : CmdArgParser :=
  { parser with
    args := parser.args.modify ix fun argument => { argument with parsed := true }
    flagCounter := parser.flagCounter + 1 }

def assign (ix : ℕ) (value : Text) : CmdArgParser :=
  { parser with args := parser.args.modify ix fun argument => { argument with value := value } }

def valueNotFound (ix : ℕ) : String :=
  let named (name : Text) : String := if name ≠ [] then " (" ++ String.ofList name ++ ")" else ""
  match parser.args[ix]? with
  | some argument =>
      "ParseArguments()" ++ named argument.argShort ++ named argument.argLong ++
        " value wasn't found."
  | none => "ParseArguments() value wasn't found."

/-- The variables of `ParseArguments`; `expectValue` holds the argument of `itFlag` while it is
set. -/
structure Loop where
  parser : CmdArgParser
  expectValue : Option ℕ := none
  result : Except String Unit := .ok ()

def isFlag (entry : Text) : Bool := entry.take 1 == ['-']

def isLong (entry : Text) : Bool := entry.take 2 == ['-', '-']

namespace Loop

def longFlag (s : Loop) (name : Text) : Loop :=
  match s.parser.argNames name with
  | none =>
      { s with
        result := .error ("ParseArguments() - Long flag " ++ String.ofList name ++
          " wasn't found.") }
  | some ix =>
      { s with
        parser := s.parser.flagParsed ix
        expectValue := if s.parser.hasVal ix then some ix else s.expectValue }

def shortFlags : Loop → Text → Loop
  | s, [] => s
  | s, c :: cs =>
      match s.parser.argNames [c] with
      | none =>
          shortFlags { s with
            result := .error ("ParseArguments() - Short flag " ++ String.ofList [c] ++
              " wasn't found.") } cs
      | some ix =>
          shortFlags { s with
            parser := s.parser.flagParsed ix
            expectValue :=
              if s.parser.hasVal ix && cs.isEmpty then some ix else s.expectValue } cs

def entry (s : Loop) (entry : Text) : Loop :=
  match s.expectValue with
  | some ix =>
      if isFlag entry then { s with result := .error (s.parser.valueNotFound ix) }
      else { s with parser := s.parser.assign ix entry, expectValue := none }
  | none =>
      if isFlag entry then
        if s.parser.textArgs ≠ [] then
          { s with
            result := .error "ParseArguments() - Flags not allowed after text arguments." }
        else if isLong entry then s.longFlag (entry.drop 2)
        else s.shortFlags (entry.drop 1)
      else { s with parser := { s.parser with textArgs := s.parser.textArgs ++ [entry] } }

def entries : Loop → List Text → Loop
  | s, [] => s
  | s, e :: es =>
      match s.result with
      | .ok _ => entries (s.entry e) es
      | .error _ => s

end Loop

def parseArguments (execName : Text) (argv : List Text) : Except String Unit × CmdArgParser :=
  let s := Loop.entries { parser := { parser with execName := execName } } argv
  let result :=
    match s.expectValue, s.result with
    | some ix, .ok _ => .error (s.parser.valueNotFound ix)
    | _, result => result
  (result, { s.parser with parsed := true })

/-! ## How a command line reads -/

structure Item where
  entry : Text
  value : Option Text

def Item.entries (item : Item) : List Text := item.entry :: item.value.toList

def flagNames (entry : Text) : List Text :=
  if isLong entry then [entry.drop 2] else (entry.drop 1).map fun c => [c]

def expects (entry : Text) : Option ℕ :=
  ((flagNames entry).getLast?.bind parser.argNames).filter parser.hasVal

def read : List Text → Option (List Item × List Text)
  | [] => some ([], [])
  | entry :: argv =>
      if isFlag entry then
        if (flagNames entry).all fun name => (parser.argNames name).isSome then
          match parser.expects entry, argv with
          | none, argv => (read argv).map fun (items, texts) => (⟨entry, none⟩ :: items, texts)
          | some _, [] => none
          | some _, value :: argv =>
              if isFlag value then none
              else (read argv).map fun (items, texts) => (⟨entry, some value⟩ :: items, texts)
        else none
      else if argv.all fun text => !isFlag text then some ([], entry :: argv)
      else none

def mark (names : List Text) : CmdArgParser :=
  names.foldl (fun parser name =>
    match parser.argNames name with
    | some ix => parser.flagParsed ix
    | none => parser) parser

def apply (item : Item) : CmdArgParser :=
  let marked := parser.mark (flagNames item.entry)
  match parser.expects item.entry, item.value with
  | some ix, some value => marked.assign ix value
  | _, _ => marked

/-! ## What the loops do -/

structure Same (parser other : CmdArgParser) : Prop where
  argNames : other.argNames = parser.argNames
  hasVal : other.hasVal = parser.hasVal

variable {parser} {other : CmdArgParser}

theorem Same.trans {third : CmdArgParser} (same : Same parser other) (same' : Same other third) :
    Same parser third :=
  ⟨same'.argNames.trans same.argNames, same'.hasVal.trans same.hasVal⟩

theorem Same.expects (same : Same parser other) (entry : Text) :
    other.expects entry = parser.expects entry := by
  unfold CmdArgParser.expects
  rw [same.argNames, same.hasVal]

theorem same_modify (f : Argument → Argument) (kept : ∀ argument, (f argument).hasVal =
    argument.hasVal) {ix : ℕ} (args : other.args = parser.args.modify ix f)
    (argNames : other.argNames = parser.argNames) : Same parser other := by
  refine ⟨argNames, funext fun place => ?_⟩
  unfold CmdArgParser.hasVal
  rw [args, List.getElem?_modify]
  cases parser.args[place]? with
  | none => rfl
  | some argument =>
      by_cases here : ix = place
      · simp [here, kept]
      · simp [here]

theorem same_flagParsed (ix : ℕ) : Same parser (parser.flagParsed ix) :=
  same_modify (fun argument => { argument with parsed := true }) (fun _ => rfl) rfl rfl

theorem same_assign (ix : ℕ) (value : Text) : Same parser (parser.assign ix value) :=
  same_modify (fun argument => { argument with value := value }) (fun _ => rfl) rfl rfl

theorem same_mark (names : List Text) : Same parser (parser.mark names) := by
  induction names generalizing parser with
  | nil => exact ⟨rfl, rfl⟩
  | cons name names ih =>
      unfold mark
      rw [List.foldl_cons]
      cases parser.argNames name with
      | none => exact ih
      | some ix => exact (same_flagParsed ix).trans ih

theorem same_apply (item : Item) : Same parser (parser.apply item) := by
  unfold apply
  split
  · exact (same_mark _).trans (same_assign _ _)
  · exact same_mark _

theorem textArgs_mark (names : List Text) : (parser.mark names).textArgs = parser.textArgs := by
  induction names generalizing parser with
  | nil => rfl
  | cons name names ih =>
      unfold mark
      rw [List.foldl_cons]
      cases parser.argNames name with
      | none => exact ih
      | some ix => exact ih

namespace Loop

theorem shortFlags_error {s : Loop} {message : String} (failed : s.result = .error message)
    (cs : Text) : ∃ message, (s.shortFlags cs).result = .error message := by
  induction cs generalizing s message with
  | nil => exact ⟨message, failed⟩
  | cons c cs ih =>
      unfold shortFlags
      split
      next => exact ih rfl
      next => exact ih failed

theorem shortFlags_unknown {s : Loop} {cs : Text} {c : Char} (member : c ∈ cs)
    (unknown : s.parser.argNames [c] = none) :
    ∃ message, (s.shortFlags cs).result = .error message := by
  induction cs generalizing s with
  | nil => exact absurd member List.not_mem_nil
  | cons d cs ih =>
      unfold shortFlags
      split
      next => exact shortFlags_error rfl cs
      next ix known =>
        cases member with
        | head => rw [unknown] at known; cases known
        | tail _ later => exact ih later unknown

theorem shortFlags_known {s : Loop} {cs : Text} (known : ∀ c ∈ cs, (s.parser.argNames [c]).isSome)
    (free : s.expectValue = none) : s.shortFlags cs =
      { s with
        parser := s.parser.mark (cs.map fun c => [c])
        expectValue :=
          (((cs.map fun c => [c]).getLast?).bind s.parser.argNames).filter s.parser.hasVal } := by
  induction cs generalizing s with
  | nil =>
      obtain ⟨parser, expectValue, result⟩ := s
      obtain rfl : expectValue = none := free
      rfl
  | cons c cs ih =>
      obtain ⟨first, rest⟩ := List.forall_mem_cons.mp known
      obtain ⟨ix, found⟩ := Option.isSome_iff_exists.mp first
      have same : Same s.parser (s.parser.flagParsed ix) := same_flagParsed ix
      unfold shortFlags
      simp only [found]
      cases cs with
      | nil => simp [shortFlags, mark, found, free, Option.filter]
      | cons d cs =>
          have later := ih (s := { s with parser := s.parser.flagParsed ix }) rest free
          simp only [List.isEmpty_cons, Bool.and_false, Bool.false_eq_true, if_false]
          rw [later]
          simp [mark, found, same.hasVal, same.argNames]

theorem entry_flags {s : Loop} {e : Text} (flag : isFlag e = true)
    (known : ∀ name ∈ flagNames e, (s.parser.argNames name).isSome)
    (free : s.expectValue = none) (noText : s.parser.textArgs = []) : s.entry e =
      { s with
        parser := s.parser.mark (flagNames e)
        expectValue := s.parser.expects e } := by
  unfold Loop.entry
  rw [free]
  simp only [flag, if_true, noText, ne_eq, not_true_eq_false, if_false]
  unfold flagNames at known
  unfold CmdArgParser.expects flagNames
  split
  next long =>
    rw [if_pos long] at known
    obtain ⟨ix, found⟩ := Option.isSome_iff_exists.mp (known _ List.mem_cons_self)
    simp [longFlag, mark, found, free, Option.filter]
  next short =>
    rw [if_neg short] at known
    exact shortFlags_known (fun c member => known [c] (List.mem_map.mpr ⟨c, member, rfl⟩)) free

theorem entry_unknown {s : Loop} {e name : Text} (flag : isFlag e = true)
    (member : name ∈ flagNames e) (unknown : s.parser.argNames name = none)
    (free : s.expectValue = none) : ∃ message, (s.entry e).result = .error message := by
  unfold Loop.entry
  rw [free]
  simp only [flag, if_true]
  unfold flagNames at member
  split
  · exact ⟨_, rfl⟩
  · split
    next long =>
      rw [if_pos long] at member
      obtain rfl := List.mem_singleton.mp member
      simp [longFlag, unknown]
    next short =>
      rw [if_neg short] at member
      obtain ⟨c, inside, rfl⟩ := List.mem_map.mp member
      exact shortFlags_unknown inside unknown

theorem entries_error {s : Loop} {message : String} (failed : s.result = .error message)
    (argv : List Text) : s.entries argv = s := by
  cases argv with
  | nil => rfl
  | cons e argv => simp [entries, failed]

theorem entries_cons {s : Loop} (ok : s.result = .ok ()) (e : Text) (argv : List Text) :
    s.entries (e :: argv) = (s.entry e).entries argv := by
  simp [entries, ok]

theorem entry_text {s : Loop} {e : Text} (text : isFlag e = false) (free : s.expectValue = none) :
    s.entry e = { s with parser := { s.parser with textArgs := s.parser.textArgs ++ [e] } } := by
  simp [entry, text, free]

theorem entries_texts {s : Loop} {argv : List Text} (texts : ∀ e ∈ argv, isFlag e = false)
    (free : s.expectValue = none) (ok : s.result = .ok ()) : s.entries argv =
      { s with parser := { s.parser with textArgs := s.parser.textArgs ++ argv } } := by
  induction argv generalizing s with
  | nil => simp [entries]
  | cons e argv ih =>
      obtain ⟨first, rest⟩ := List.forall_mem_cons.mp texts
      have later := ih
        (s := { s with parser := { s.parser with textArgs := s.parser.textArgs ++ [e] } })
        rest free ok
      rw [entries_cons ok, entry_text first free, later]
      simp

theorem entries_flag_after_text {s : Loop} {argv : List Text}
    (flagged : ∃ e ∈ argv, isFlag e = true) (free : s.expectValue = none)
    (ok : s.result = .ok ()) (behind : s.parser.textArgs ≠ []) :
    ∃ message, (s.entries argv).result = .error message := by
  induction argv generalizing s with
  | nil => simp at flagged
  | cons e argv ih =>
      rw [entries_cons ok]
      cases flag : isFlag e with
      | true =>
          have refused : (s.entry e).result =
              .error "ParseArguments() - Flags not allowed after text arguments." := by
            simp [entry, free, flag, behind]
          rw [entries_error refused]
          exact ⟨_, refused⟩
      | false =>
          have later : ∃ e ∈ argv, isFlag e = true := by simpa [flag] using flagged
          rw [entry_text flag free]
          exact ih
            (s := { s with parser := { s.parser with textArgs := s.parser.textArgs ++ [e] } })
            later free ok (by simp)

theorem entries_item {s : Loop} (item : Item) (argv : List Text) (flag : isFlag item.entry = true)
    (known : ∀ name ∈ flagNames item.entry, (s.parser.argNames name).isSome)
    (value : (s.parser.expects item.entry).isSome = item.value.isSome)
    (plain : ∀ v ∈ item.value, isFlag v = false) (free : s.expectValue = none)
    (ok : s.result = .ok ()) (noText : s.parser.textArgs = []) :
    s.entries (item.entries ++ argv) =
      Loop.entries { s with parser := s.parser.apply item } argv := by
  obtain ⟨e, v⟩ := item
  have first := entry_flags flag known free noText
  unfold Item.entries CmdArgParser.apply
  cases v with
  | none =>
      have nothing : s.parser.expects e = none := by simpa using value
      simp only [Option.toList_none, List.singleton_append]
      rw [entries_cons ok, first, nothing]
      simp [free]
  | some v =>
      obtain ⟨ix, expected⟩ := Option.isSome_iff_exists.mp value
      have text : isFlag v = false := plain v rfl
      simp only [Option.toList_some, List.cons_append, List.nil_append]
      have stored : Loop.entry
          { s with parser := s.parser.mark (flagNames e), expectValue := some ix } v =
            { s with
              parser := (s.parser.mark (flagNames e)).assign ix v
              expectValue := none } := by
        simp [entry, text]
      rw [entries_cons ok, first, expected, entries_cons (by exact ok), stored]
      simp [free]

end Loop

theorem textArgs_apply (item : Item) : (parser.apply item).textArgs = parser.textArgs := by
  unfold apply
  split
  · exact textArgs_mark _
  · exact textArgs_mark _

theorem Same.known (same : Same parser other) {entry : Text}
    (known : ((flagNames entry).all fun name => (parser.argNames name).isSome) = true) :
    ∀ name ∈ flagNames entry, (other.argNames name).isSome := by
  rw [same.argNames]
  exact List.all_eq_true.mp known

theorem Same.entries_item {s : Loop} (same : Same parser s.parser) (item : Item) (argv : List Text)
    (flag : isFlag item.entry = true)
    (known : ((flagNames item.entry).all fun name => (parser.argNames name).isSome) = true)
    (value : (parser.expects item.entry).isSome = item.value.isSome)
    (plain : ∀ v ∈ item.value, isFlag v = false) (free : s.expectValue = none)
    (ok : s.result = .ok ()) (noText : s.parser.textArgs = []) :
    s.entries (item.entries ++ argv) =
        Loop.entries { s with parser := s.parser.apply item } argv ∧
      Same parser (s.parser.apply item) ∧ (s.parser.apply item).textArgs = [] := by
  rw [← same.expects] at value
  exact ⟨Loop.entries_item item argv flag (same.known known) value plain free ok noText,
    same.trans (same_apply item), (textArgs_apply item).trans noText⟩

theorem entries_of_read {argv : List Text} {items : List Item} {texts : List Text}
    (reads : parser.read argv = some (items, texts)) {s : Loop} (same : Same parser s.parser)
    (free : s.expectValue = none) (ok : s.result = .ok ()) (noText : s.parser.textArgs = []) :
    s.entries argv =
      { s with parser := { items.foldl apply s.parser with textArgs := texts } } := by
  fun_induction read parser argv generalizing s items texts with
  | case1 =>
      cases reads
      obtain ⟨⟨parsed, flagCounter, execName, args, argNames, textArgs⟩, expectValue, result⟩ := s
      obtain rfl : textArgs = [] := noText
      rfl
  | case2 entry flag known argv nothing ih =>
      obtain ⟨⟨items', texts'⟩, rest, parts⟩ := Option.map_eq_some_iff.mp reads
      cases parts
      obtain ⟨first, same', noText'⟩ := same.entries_item ⟨entry, none⟩ argv flag known
        (by simp [nothing]) (by simp) free ok noText
      exact first.trans (ih rest same' free ok noText')
  | case3 | case4 | case6 | case8 => cases reads
  | case5 entry flag known ix value argv expected plain ih =>
      obtain ⟨⟨items', texts'⟩, rest, parts⟩ := Option.map_eq_some_iff.mp reads
      cases parts
      obtain ⟨first, same', noText'⟩ := same.entries_item ⟨entry, some value⟩ argv flag known
        (by simp [expected]) (by simpa using plain) free ok noText
      exact first.trans (ih rest same' free ok noText')
  | case7 entry argv text texts =>
      cases reads
      have all : ∀ e ∈ entry :: argv, isFlag e = false := by
        simpa [text] using texts
      rw [Loop.entries_texts all free ok, noText]
      rfl

theorem entries_of_not_read {argv : List Text} (unread : parser.read argv = none) {s : Loop}
    (same : Same parser s.parser) (free : s.expectValue = none) (ok : s.result = .ok ())
    (noText : s.parser.textArgs = []) :
    (∃ ix, (s.entries argv).expectValue = some ix) ∨
      ∃ message, (s.entries argv).result = .error message := by
  fun_induction read parser argv generalizing s with
  | case1 => cases unread
  | case2 entry flag known argv nothing ih =>
      obtain ⟨first, same', noText'⟩ := same.entries_item ⟨entry, none⟩ argv flag known
        (by simp [nothing]) (by simp) free ok noText
      have later := ih (Option.map_eq_none_iff.mp unread)
        (s := { s with parser := s.parser.apply ⟨entry, none⟩ }) same' free ok noText'
      exact first ▸ later
  | case3 entry flag known ix expected =>
      have first := Loop.entry_flags flag (same.known known) free noText
      rw [Loop.entries_cons ok, first, same.expects, expected]
      exact .inl ⟨ix, rfl⟩
  | case4 entry flag known ix value argv expected refused =>
      have first := Loop.entry_flags flag (same.known known) free noText
      right
      rw [Loop.entries_cons ok, first, same.expects, expected, Loop.entries_cons (by exact ok)]
      have failed : (Loop.entry
          { s with
            parser := s.parser.mark (flagNames entry)
            expectValue := some ix } value).result =
            .error ((s.parser.mark (flagNames entry)).valueNotFound ix) := by
        simp [Loop.entry, refused]
      rw [Loop.entries_error failed]
      exact ⟨_, failed⟩
  | case5 entry flag known ix value argv expected plain ih =>
      obtain ⟨first, same', noText'⟩ := same.entries_item ⟨entry, some value⟩ argv flag known
        (by simp [expected]) (by simpa using plain) free ok noText
      have later := ih (Option.map_eq_none_iff.mp unread)
        (s := { s with parser := s.parser.apply ⟨entry, some value⟩ }) same' free ok noText'
      exact first ▸ later
  | case6 entry argv flag unknown =>
      right
      obtain ⟨name, member, missing⟩ : ∃ name ∈ flagNames entry,
          s.parser.argNames name = none := by
        rw [same.argNames]
        simpa using unknown
      obtain ⟨message, failed⟩ := Loop.entry_unknown flag member missing free
      rw [Loop.entries_cons ok, Loop.entries_error failed]
      exact ⟨message, failed⟩
  | case7 => cases unread
  | case8 entry argv text flagged =>
      right
      have plain : isFlag entry = false := by simpa using text
      have later : ∃ e ∈ argv, isFlag e = true := by simpa using flagged
      rw [Loop.entries_cons ok, Loop.entry_text plain free]
      exact Loop.entries_flag_after_text
        (s := { s with parser := { s.parser with textArgs := s.parser.textArgs ++ [entry] } })
        later free ok (by simp)

/-! ## The values -/

variable (parser) in
theorem value_flagParsed (ix place : ℕ) : (parser.flagParsed ix).value place = parser.value place ∧
    (parser.flagParsed ix).args.length = parser.args.length := by
  refine ⟨?_, List.length_modify ..⟩
  unfold value flagParsed
  rw [List.getElem?_modify]
  cases parser.args[place]? with
  | none => rfl
  | some argument =>
      by_cases here : ix = place
      · simp [here]
      · simp [here]

variable (parser) in
theorem value_mark (names : List Text) (place : ℕ) :
    (parser.mark names).value place = parser.value place ∧
      (parser.mark names).args.length = parser.args.length := by
  induction names generalizing parser with
  | nil => exact ⟨rfl, rfl⟩
  | cons name names ih =>
      unfold mark
      rw [List.foldl_cons]
      cases parser.argNames name with
      | none => exact ih parser
      | some ix =>
          obtain ⟨value, length⟩ := parser.value_flagParsed ix place
          obtain ⟨rest, length'⟩ := ih (parser.flagParsed ix)
          exact ⟨rest.trans value, length'.trans length⟩

theorem value_assign {ix : ℕ} (inside : ix < parser.args.length) (value : Text) (place : ℕ) :
    (parser.assign ix value).value place =
      if ix = place then some value else parser.value place := by
  unfold CmdArgParser.value assign
  rw [List.getElem?_modify]
  split_ifs with here
  · subst here
    rw [List.getElem?_eq_getElem inside]
    simp
  · cases parser.args[place]? <;> rfl

theorem length_apply (item : Item) : (parser.apply item).args.length = parser.args.length := by
  unfold apply
  split
  · exact (List.length_modify ..).trans (parser.value_mark (flagNames item.entry) 0).2
  · exact (parser.value_mark (flagNames item.entry) 0).2

theorem value_apply_of_other {item : Item} {ix : ℕ} (inside : ∀ place, parser.expects item.entry =
    some place → place < parser.args.length) (other : parser.expects item.entry ≠ some ix) :
    (parser.apply item).value ix = parser.value ix := by
  unfold apply
  split
  next place value expected given =>
    have marked := parser.value_mark (flagNames item.entry) ix
    have here : place < (parser.mark (flagNames item.entry)).args.length :=
      marked.2.symm ▸ inside place expected
    have different : place ≠ ix := fun same => other (same ▸ expected)
    rw [value_assign here, if_neg different]
    exact marked.1
  next => exact (parser.value_mark _ ix).1

theorem value_apply_of_giver {item : Item} {ix : ℕ} {value : Text}
    (inside : ix < parser.args.length)
    (expected : parser.expects item.entry = some ix) (given : item.value = some value) :
    (parser.apply item).value ix = some value := by
  have marked := parser.value_mark (flagNames item.entry) ix
  unfold apply
  rw [expected, given]
  dsimp only
  rw [value_assign (marked.2.symm ▸ inside), if_pos rfl]

def Linked (parser : CmdArgParser) : Prop :=
  ∀ name ix, parser.argNames name = some ix → ix < parser.args.length

theorem Linked.expects (linked : parser.Linked) {entry : Text} {ix : ℕ}
    (expected : parser.expects entry = some ix) : ix < parser.args.length := by
  obtain ⟨found, -⟩ := Option.filter_eq_some_iff.mp expected
  obtain ⟨name, -, known⟩ := Option.bind_eq_some_iff.mp found
  exact linked name ix known

theorem Linked.apply (linked : parser.Linked) (item : Item) : (parser.apply item).Linked := by
  intro name ix known
  rw [(same_apply item).argNames] at known
  rw [length_apply]
  exact linked name ix known

theorem value_foldl_of_other {items : List Item} {ix : ℕ} (linked : parser.Linked)
    (other : ∀ item ∈ items, parser.expects item.entry ≠ some ix) :
    (items.foldl apply parser).value ix = parser.value ix := by
  induction items generalizing parser with
  | nil => rfl
  | cons item items ih =>
      obtain ⟨first, rest⟩ := List.forall_mem_cons.mp other
      have same : Same parser (parser.apply item) := same_apply item
      have later := ih (linked.apply item) fun item' member =>
        (same.expects item'.entry).symm ▸ rest item' member
      exact later.trans (value_apply_of_other (fun _ => linked.expects) first)

theorem value_foldl_of_giver (items : List Item) {ix : ℕ} (linked : parser.Linked)
    (valued : ∀ item ∈ items, (parser.expects item.entry).isSome = item.value.isSome)
    (given : ∃ giver ∈ items, parser.expects giver.entry = some ix) :
    ∃ giver ∈ items, ∃ value, giver.value = some value ∧
      parser.expects giver.entry = some ix ∧ (items.foldl apply parser).value ix = some value := by
  induction items generalizing parser with
  | nil => simp at given
  | cons item items ih =>
      obtain ⟨first, rest⟩ := List.forall_mem_cons.mp valued
      have same : Same parser (parser.apply item) := same_apply item
      by_cases later : ∃ giver ∈ items, parser.expects giver.entry = some ix
      · obtain ⟨giver, member, value, holds, expected, stays⟩ := ih (linked.apply item)
          (fun item' member => (same.expects item'.entry).symm ▸ rest item' member)
          (by simpa only [same.expects] using later)
        rw [same.expects] at expected
        exact ⟨giver, List.mem_cons_of_mem _ member, value, holds, expected, stays⟩
      · have expected : parser.expects item.entry = some ix := by
          obtain ⟨giver, member, expected⟩ := given
          rcases List.mem_cons.mp member with rfl | inside
          · exact expected
          · exact absurd ⟨giver, inside, expected⟩ later
        rw [expected, Option.isSome_some] at first
        obtain ⟨value, holds⟩ := Option.isSome_iff_exists.mp first.symm
        have others : ∀ item' ∈ items, (parser.apply item).expects item'.entry ≠ some ix := by
          intro item' member expected'
          rw [same.expects] at expected'
          exact later ⟨item', member, expected'⟩
        refine ⟨item, List.mem_cons_self, value, holds, expected, ?_⟩
        rw [List.foldl_cons, value_foldl_of_other (linked.apply item) others]
        exact value_apply_of_giver (linked.expects expected) expected holds

theorem read_parts {argv : List Text} {items : List Item} {texts : List Text}
    (reads : parser.read argv = some (items, texts)) :
    argv = items.flatMap Item.entries ++ texts ∧
      (∀ item ∈ items, isFlag item.entry = true ∧
        (parser.expects item.entry).isSome = item.value.isSome ∧
        ∀ value ∈ item.value, isFlag value = false) ∧
      ∀ text ∈ texts, isFlag text = false := by
  fun_induction read parser argv generalizing items texts with
  | case1 =>
      cases reads
      simp
  | case2 entry flag known argv nothing ih =>
      obtain ⟨⟨items', texts'⟩, rest, parts⟩ := Option.map_eq_some_iff.mp reads
      cases parts
      obtain ⟨whole, all, plain⟩ := ih rest
      refine ⟨congrArg (entry :: ·) whole,
        List.forall_mem_cons.mpr ⟨⟨flag, ?_, by simp⟩, all⟩, plain⟩
      rw [nothing]
      rfl
  | case3 | case4 | case6 | case8 => cases reads
  | case5 entry flag known ix value argv expected refused ih =>
      obtain ⟨⟨items', texts'⟩, rest, parts⟩ := Option.map_eq_some_iff.mp reads
      cases parts
      obtain ⟨whole, all, plain⟩ := ih rest
      refine ⟨congrArg (entry :: value :: ·) whole,
        List.forall_mem_cons.mpr ⟨⟨flag, ?_, by simpa using refused⟩, all⟩, plain⟩
      rw [expected]
      rfl
  | case7 entry argv text texts =>
      cases reads
      refine ⟨rfl, fun _ member => absurd member List.not_mem_nil, ?_⟩
      simpa [text] using texts

/-! ## Registered arguments -/

structure Registration where
  argShort : Text
  argLong : Text
  hasVal : Bool

def registered (arguments : List Registration) : CmdArgParser :=
  arguments.foldl (fun parser argument =>
    parser.setArgument argument.argShort argument.argLong argument.hasVal) {}

theorem insertName_cases {name other : Text} {ix place : ℕ} {argNames : Text → Option ℕ}
    (known : insertName name ix argNames other = some place) :
    argNames other = some place ∨ place = ix := by
  unfold insertName at known
  split at known
  next found =>
    left
    rw [found, known]
  next =>
    split at known
    · exact .inr (Option.some.inj known).symm
    · cases known

theorem Linked.setArgument (linked : parser.Linked) (argShort argLong : Text) (hasVal : Bool) :
    (parser.setArgument argShort argLong hasVal).Linked := by
  have length : (parser.setArgument argShort argLong hasVal).args.length =
      parser.args.length + 1 := List.length_append
  intro name ix known
  rw [length]
  suffices parser.argNames name = some ix ∨ ix = parser.args.length by
    rcases this with old | new
    · have := linked name ix old
      omega
    · omega
  have afterShort : ∀ place, (if argShort ≠ [] then
      insertName argShort parser.args.length parser.argNames else parser.argNames) name =
        some place → parser.argNames name = some place ∨ place = parser.args.length := by
    intro place known
    split at known
    · exact insertName_cases known
    · exact .inl known
  unfold CmdArgParser.setArgument at known
  dsimp only at known
  split at known
  · rcases insertName_cases known with earlier | new
    · exact afterShort ix earlier
    · exact .inr new
  · exact afterShort ix known

theorem registered_linked (arguments : List Registration) :
    (registered arguments).Linked ∧ (registered arguments).textArgs = [] := by
  suffices ∀ parser : CmdArgParser, parser.Linked ∧ parser.textArgs = [] →
      (arguments.foldl (fun parser argument =>
        parser.setArgument argument.argShort argument.argLong argument.hasVal) parser).Linked ∧
      (arguments.foldl (fun parser argument =>
        parser.setArgument argument.argShort argument.argLong argument.hasVal) parser).textArgs =
          [] from
    this {} ⟨fun _ _ known => absurd known (by simp), rfl⟩
  induction arguments with
  | nil => exact fun _ fresh => fresh
  | cons argument arguments ih =>
      exact fun parser fresh => ih _ ⟨fresh.1.setArgument _ _ _, fresh.2⟩

/-! ## Parsing -/

def Given (parser : CmdArgParser) (items : List Item) : Prop :=
  ∀ before item later, items = before ++ item :: later →
    ∀ name ∈ flagNames item.entry, ∀ ix, parser.argNames name = some ix →
      parser.hasVal ix = true → ∃ giver ∈ item :: later, parser.expects giver.entry = some ix

structure Kept (parser : CmdArgParser) (argv : List Text) (items : List Item) (texts : List Text)
    (after : CmdArgParser) : Prop where
  whole : argv = items.flatMap Item.entries ++ texts
  flags : ∀ item ∈ items, isFlag item.entry = true ∧ ∀ value ∈ item.value, isFlag value = false
  plain : ∀ text ∈ texts, isFlag text = false
  textArgs : after.textArgs = texts
  values : ∀ before item later, items = before ++ item :: later →
    ∀ name ∈ flagNames item.entry, ∀ ix, parser.argNames name = some ix →
      parser.hasVal ix = true → ∃ giver ∈ item :: later, ∃ value, giver.value = some value ∧
        parser.expects giver.entry = some ix ∧ after.value ix = some value

theorem same_foldl (items : List Item) : Same parser (items.foldl apply parser) := by
  induction items generalizing parser with
  | nil => exact ⟨rfl, rfl⟩
  | cons item items ih => exact (same_apply item).trans ih

theorem Linked.foldl (linked : parser.Linked) (items : List Item) :
    (items.foldl CmdArgParser.apply parser).Linked := by
  induction items generalizing parser with
  | nil => exact linked
  | cons item items ih => exact ih (linked.apply item)

theorem parseArguments_of_read {execName : Text} {argv : List Text} {items : List Item}
    {texts : List Text} (noText : parser.textArgs = [])
    (reads : parser.read argv = some (items, texts)) :
    parser.parseArguments execName argv =
      (.ok (), { items.foldl apply { parser with execName := execName } with
        textArgs := texts, parsed := true }) := by
  have stored := entries_of_read reads (s := { parser := { parser with execName := execName } })
    ⟨rfl, rfl⟩ rfl rfl noText
  unfold parseArguments
  rw [stored]

theorem parseArguments_of_not_read (execName : Text) {argv : List Text}
    (noText : parser.textArgs = []) (unread : parser.read argv = none) :
    (parser.parseArguments execName argv).1 ≠ .ok () := by
  have fails := entries_of_not_read unread
    (s := { parser := { parser with execName := execName } }) ⟨rfl, rfl⟩ rfl rfl noText
  unfold parseArguments
  generalize Loop.entries { parser := { parser with execName := execName } } argv = s at fails
  obtain ⟨parser', expectValue, result⟩ := s
  rcases fails with ⟨ix, expected⟩ | ⟨message, failed⟩
  · obtain rfl : expectValue = some ix := expected
    cases result with
    | ok => simp
    | error => simp
  · obtain rfl : result = .error message := failed
    cases expectValue with
    | none => simp
    | some => simp

theorem kept_iff_given (execName : Text) {argv : List Text} {items : List Item}
    {texts : List Text} (linked : parser.Linked) (noText : parser.textArgs = [])
    (reads : parser.read argv = some (items, texts)) :
    Kept parser argv items texts (parser.parseArguments execName argv).2 ↔
      parser.Given items := by
  rw [parseArguments_of_read noText reads]
  obtain ⟨whole, all, plain⟩ := read_parts reads
  constructor
  · intro kept before item later split name member ix known takes
    obtain ⟨giver, inside, value, -, expected, -⟩ :=
      kept.values before item later split name member ix known takes
    exact ⟨giver, inside, expected⟩
  · intro given
    refine ⟨whole, fun item member => ⟨(all item member).1, (all item member).2.2⟩, plain, rfl, ?_⟩
    rintro before item later rfl name member ix known takes
    -- The items before this one do not matter for what is given from here on.
    have named : Same parser { parser with execName := execName } := ⟨rfl, rfl⟩
    have same := named.trans (same_foldl before)
    have start : Linked { parser with execName := execName } := linked
    have linked' := start.foldl before
    obtain ⟨giver, inside, value, holds, expected, stays⟩ := value_foldl_of_giver
      (item :: later) linked'
      (fun item' member' => (same.expects item'.entry).symm ▸
        (all item' (List.mem_append_right before member')).2.1)
      (by simpa only [same.expects] using given before item later rfl name member ix known takes)
    rw [same.expects] at expected
    refine ⟨giver, inside, value, holds, expected, ?_⟩
    rw [← stays, ← List.foldl_append]
    rfl

/-- Parsing keeps every value of a command line that it accepts if and only if no value-taking flag
stands before the last letter of a group without a value behind it for the same argument. -/
theorem parseArguments_keeps_iff (arguments : List Registration) (execName : Text)
    (argv : List Text) :
    (((registered arguments).parseArguments execName argv).1 = .ok () →
      ∃ items texts, (registered arguments).read argv = some (items, texts) ∧
        Kept (registered arguments) argv items texts
          ((registered arguments).parseArguments execName argv).2) ↔
      ∀ items texts, (registered arguments).read argv = some (items, texts) →
        (registered arguments).Given items := by
  obtain ⟨linked, noText⟩ := registered_linked arguments
  cases reads : (registered arguments).read argv with
  | none =>
      have fails := parseArguments_of_not_read execName noText reads
      exact iff_of_true (fun ok => absurd ok fails) (by simp)
  | some reading =>
      obtain ⟨items, texts⟩ := reading
      have succeeds : ((registered arguments).parseArguments execName argv).1 = .ok () := by
        rw [parseArguments_of_read noText reads]
      have kept := kept_iff_given execName linked noText reads
      constructor
      · intro holds items' texts' same
        obtain ⟨rfl, rfl⟩ := Prod.mk.inj (Option.some.inj same)
        obtain ⟨items', texts', same', all⟩ := holds succeeds
        obtain ⟨rfl, rfl⟩ := Prod.mk.inj (Option.some.inj same')
        exact kept.mp all
      · intro given _
        exact ⟨items, texts, rfl, kept.mpr (given items texts rfl)⟩

theorem group_value_lost :
    ¬ ∀ (arguments : List Registration) (execName : Text) (argv : List Text),
      ((registered arguments).parseArguments execName argv).1 = .ok () →
        ∃ items texts, (registered arguments).read argv = some (items, texts) ∧
          Kept (registered arguments) argv items texts
            ((registered arguments).parseArguments execName argv).2 := by
  intro all
  obtain ⟨items, texts, reads, kept⟩ :=
    all [⟨['f'], [], true⟩, ⟨['v'], [], false⟩] ['x'] [['-', 'f', 'v']] rfl
  obtain rfl : [⟨['-', 'f', 'v'], none⟩] = items := by
    have same := congrArg (Option.map Prod.fst) reads
    exact Option.some.inj same
  obtain ⟨giver, member, -, -, expected, -⟩ :=
    kept.values [] _ [] rfl ['f'] (by decide) 0 rfl rfl
  obtain rfl := List.mem_singleton.mp member
  exact absurd expected (by decide)

end CmdArgParser

end SpotGridBot.Utils
