import SpotGridBot.Lib.JsonReader
import SpotGridBot.OKX.ConnectionORD

namespace SpotGridBot.Core
open JsonText

def createJSONMessageWithCode (msg : String) (code : ℤ := 1) : String :=
  "\x7b\"code\":" ++ toString code ++ ",\"msg\":\"" ++ msg ++ "\"\x7d"

/-- `Object::set`: of two members with one name the later stays. -/
def Members.set (members : Members) (name : String) (value : Json) : Members :=
  (name, value) :: members.filter (·.1 ≠ name)

/-- What the parser makes of the values; `numberText` is the text that a number converts to. -/
def jsonReader (numberText : List Char → String) : Reader Json where
  null := .null
  bool b := .scalar (toString b)
  number chars := .scalar (numberText chars)
  string chars := .scalar (String.ofList chars)
  array elements := .array elements
  object members := .object
    (members.foldl (fun set member => Members.set set (String.ofList member.1) member.2) [])

/-- The constructor of `JSONDocument`; `none` is an exception. -/
def JSONDocument.parse (numberText : List Char → String) (document : String) : Option Members :=
  (JsonText.read (jsonReader numberText) document.toList).bind Json.extract

section RoundTrip
variable (c : Conversions) (toLong : Json → Option ℤ) (numberText : List Char → String)

def roundTrip (msg : String) (code : ℤ) : Option JSONError :=
  (JSONDocument.parse numberText (createJSONMessageWithCode msg code)).bind
    (parseJSONMessageWithCode c toLong)

structure Conversions.Documented : Prop where
  -- A nested value is printed with a line break after its bracket.
  array_broken : ∀ elements, ∃ rest, (c.print (.array elements)).toList = '[' :: '\n' :: rest
  object_broken : ∀ members, ∃ rest,
    (c.print (.object members)).toList = '\x7b' :: '\n' :: rest
  number_plain : ∀ chars, isNumber chars = true →
    ∀ d ∈ (numberText chars).toList, d ≠ '"' ∧ d ≠ '\\'
  integer_kept : ∀ code : ℤ, -2 ^ 31 ≤ code → code < 2 ^ 31 →
    numberText (toString code).toList = toString code
  long_of_integer : ∀ code : ℤ, -2 ^ 31 ≤ code → code < 2 ^ 31 →
    toLong (.scalar (toString code)) = some code

end RoundTrip

def messageHeader (code : ℤ) : List Token :=
  [.openObject, .string "code".toList, .colon, .word (toString code).toList, .comma,
    .string "msg".toList, .colon]

theorem tokens_message (msg : String) (code : ℤ) :
    tokens (createJSONMessageWithCode msg code).toList =
      (Scanner.scan (.string []) (msg.toList ++ ['"', '\x7d'])).map (messageHeader code ++ ·) := by
  have number := isNumber_numeric (isNumber_toString code)
  have nonempty : (toString code).toList ≠ [] := by
    intro empty
    have accepted := isNumber_toString code
    rw [empty] at accepted
    cases accepted
  have start : Scanner.advance .outside "\x7b\"code\":".toList =
      some (.outside, [.openObject, .string "code".toList, .colon]) := by decide +kernel
  have digits := Scanner.advance_outside (fun d member => (number d member).between) nonempty
  have middle : Scanner.advance (.word (toString code).toList) ",\"msg\":\"".toList =
      some (.string [], [.word (toString code).toList, .comma, .string "msg".toList, .colon]) :=
    rfl
  have text : (createJSONMessageWithCode msg code).toList =
      "\x7b\"code\":".toList ++ ((toString code).toList ++
        (",\"msg\":\"".toList ++ (msg.toList ++ ['"', '\x7d']))) := by
    simp only [createJSONMessageWithCode, String.toList_append, List.append_assoc]
    rfl
  rw [text, tokens, Scanner.scan_append start, Scanner.scan_silent digits,
    Scanner.scan_append middle, Option.map_map]
  rfl

theorem build_header {α : Type*} (r : Reader α) (code : ℤ) (rest : List Token) :
    Builder.build r (.value []) (messageHeader code ++ rest) =
      Builder.build r
        (.value [.object [("code".toList, r.number (toString code).toList)] "msg".toList])
        rest := by
  have word := r.word_of_isNumber (isNumber_toString code)
  simp only [messageHeader, List.cons_append, List.nil_append, Builder.build, Builder.step,
    Builder.begin, Builder.put, word, Option.bind_some, Option.map_some]

theorem parse_message (numberText : List Char → String) (msg : String) (code : ℤ) :
    JSONDocument.parse numberText (createJSONMessageWithCode msg code) =
      ((Scanner.scan (.string []) (msg.toList ++ ['"', '\x7d'])).bind
        (Builder.build (jsonReader numberText)
          (.value [.object [("code".toList, .scalar (numberText (toString code).toList))]
            "msg".toList]))).bind Json.extract := by
  rw [JSONDocument.parse, JsonText.read, tokens_message, Option.bind_map]
  exact congrArg (Option.bind · _) (congrArg _ (funext (build_header (jsonReader numberText) code)))

section Correct
variable {c : Conversions} {toLong : Json → Option ℤ} {numberText : List Char → String}
  {msg : String} {code : ℤ}

theorem roundTrip_of_plain (documented : c.Documented toLong numberText)
    (fits : -2 ^ 31 ≤ code ∧ code < 2 ^ 31) (plain : ∀ d ∈ msg.toList, Plain d) :
    roundTrip c toLong numberText msg code = some { msg, code } := by
  have scanned : Scanner.scan (.string []) (msg.toList ++ ['"', '\x7d']) =
      some [.string msg.toList, .closeObject] := by
    rw [Scanner.scan_literal plain]
    rfl
  have parsed : JSONDocument.parse numberText (createJSONMessageWithCode msg code) =
      some [("msg", .scalar msg), ("code", .scalar (toString code))] := by
    rw [parse_message, scanned, documented.integer_kept code fits.1 fits.2]
    have text : String.ofList msg.toList = msg := String.ofList_toList
    simp only [Option.bind_some, Builder.build, Builder.step, Builder.begin, Builder.put,
      jsonReader, text]
    rfl
  have long := documented.long_of_integer code fits.1 fits.2
  have text : c.text [("msg", .scalar msg), ("code", .scalar (toString code))] "msg" = some msg :=
    rfl
  have number : JSONDocument.getValue toLong 0
      [("msg", .scalar msg), ("code", .scalar (toString code))] "code" = some code := long
  rw [roundTrip, parsed, Option.bind_some, parseJSONMessageWithCode, text, number]
  rfl

theorem mem_of_mem_set {members : List (List Char × Json)} {start : Members} {m : String × Json}
    (listed : m ∈ members.foldl
      (fun set member => Members.set set (String.ofList member.1) member.2) start) :
    m ∈ start ∨ ∃ member ∈ members, member.2 = m.2 := by
  induction members generalizing start with
  | nil => exact .inl listed
  | cons member members ih =>
      rcases ih listed with before | ⟨later, there, same⟩
      · rcases List.mem_cons.mp before with rfl | kept
        · exact .inr ⟨member, List.mem_cons_self, rfl⟩
        · exact .inl (List.mem_of_mem_filter kept)
      · exact .inr ⟨later, List.mem_cons_of_mem _ there, same⟩

def Avoids (msg : String) (value : Json) : Prop :=
  value ≠ .scalar msg ∧ ∀ members, value = .object members → ∀ m ∈ members, m.2 ≠ .scalar msg

theorem Avoids.scalar {text : String} (other : text ≠ msg) : Avoids msg (.scalar text) :=
  ⟨fun same => other (Json.scalar.inj same), nofun⟩

theorem hereditary_avoids (documented : c.Documented toLong numberText)
    (special : ∃ d ∈ msg.toList, d = '"' ∨ d = '\\') :
    (jsonReader numberText).Hereditary (Avoids msg) where
  null := ⟨nofun, nofun⟩
  bool b := by
    obtain ⟨d, member, mark⟩ := special
    have letters : ∀ d ∈ (toString b).toList, Plain d := by
      cases b
      · exact plain_of_all rfl
      · exact plain_of_all rfl
    apply Avoids.scalar
    intro same
    obtain ⟨noQuote, noBackslash, -⟩ := letters d (same ▸ member)
    exact mark.elim noQuote noBackslash
  number chars number := by
    obtain ⟨d, member, mark⟩ := special
    apply Avoids.scalar
    intro same
    obtain ⟨noQuote, noBackslash⟩ := documented.number_plain chars number d (same ▸ member)
    exact mark.elim noQuote noBackslash
  array elements _ := ⟨nofun, nofun⟩
  object members all := by
    refine ⟨nofun, fun _ same m listed => ?_⟩
    obtain rfl := Json.object.inj same
    rcases mem_of_mem_set listed with none | ⟨member, there, value⟩
    · exact absurd none List.not_mem_nil
    · exact value ▸ (all member there).1

theorem ne_broken {before after rest : List Char} {b d : Char}
    (clear : ∀ x ∈ before, Plain x) (mark : d = '"' ∨ d = '\\') (plain : Plain b) :
    before ++ d :: after ≠ b :: '\n' :: rest := by
  intro same
  cases before with
  | nil =>
      obtain rfl := (List.cons.inj same).1
      exact mark.elim plain.1 plain.2.1
  | cons x before =>
      have second := (List.cons.inj same).2
      cases before with
      | nil =>
          obtain rfl := (List.cons.inj second).1
          revert mark
          decide
      | cons y before =>
          obtain rfl := (List.cons.inj second).1
          have printable := clear '\n' (List.mem_cons_of_mem _ List.mem_cons_self)
          revert printable
          decide

theorem text_ne_of_avoids (documented : c.Documented toLong numberText) {jd : Members}
    (avoids : ∀ m ∈ jd, m.2 ≠ .scalar msg) {before after : List Char} {d : Char}
    (found : msg.toList = before ++ d :: after) (clear : ∀ x ∈ before, Plain x)
    (mark : d = '"' ∨ d = '\\') (name : String) : c.text jd name ≠ some msg := by
  intro text
  have nonempty : some "" ≠ some msg := by
    rintro empty
    rw [← Option.some.inj empty] at found
    exact List.append_ne_nil_of_right_ne_nil _ (List.cons_ne_nil _ _) found.symm
  unfold Conversions.text JSONDocument.getValue at text
  split at text
  · exact nonempty text
  · exact nonempty text
  next value notNull present =>
    cases value with
    | null => exact notNull rfl
    | scalar read =>
        obtain rfl := Option.some.inj text
        obtain ⟨front, back, rfl, -⟩ := List.lookup_eq_some_iff.mp present
        exact avoids _ (List.mem_append_right front List.mem_cons_self) rfl
    | array elements =>
        obtain ⟨rest, broken⟩ := documented.array_broken elements
        rw [Option.some.inj text, found] at broken
        exact ne_broken clear mark (by decide) broken
    | object members =>
        obtain ⟨rest, broken⟩ := documented.object_broken members
        rw [Option.some.inj text, found] at broken
        exact ne_broken clear mark (by decide) broken

theorem plain_of_roundTrip (documented : c.Documented toLong numberText)
    (back : roundTrip c toLong numberText msg code = some { msg, code }) :
    ∀ d ∈ msg.toList, Plain d := by
  by_contra special
  obtain ⟨before, d, after, found, clear, notPlain⟩ := exists_first_special special
  obtain ⟨jd, parsed, extracted⟩ := Option.bind_eq_some_iff.mp back
  rw [parse_message] at parsed
  obtain ⟨value, read, object⟩ := Option.bind_eq_some_iff.mp parsed
  obtain ⟨rest, scanned, built⟩ := Option.bind_eq_some_iff.mp read
  rw [found, List.append_assoc, List.cons_append] at scanned
  obtain ⟨mark, shorter⟩ := shorter_of_special clear notPlain scanned
  have member : d ∈ msg.toList := found ▸ List.mem_append_right _ List.mem_cons_self
  have inherits := hereditary_avoids (c := c) documented ⟨d, member, mark⟩
  -- Each string that is read is shorter than the message.
  have strings : ∀ chars, Token.string chars ∈ rest →
      Avoids msg ((jsonReader numberText).string chars) := by
    intro chars listed
    apply Avoids.scalar
    rintro rfl
    have short := shorter chars listed
    rw [← found, String.toList_ofList] at short
    exact Nat.lt_irrefl _ short
  have header : Builder.All (Avoids msg)
      (.value [.object [("code".toList, .scalar (numberText (toString code).toList))]
        "msg".toList]) :=
    List.forall_mem_singleton.mpr
      (List.forall_mem_singleton.mpr (inherits.number _ (isNumber_toString code)))
  have avoids := Builder.all_build inherits strings header built
  cases value with
  | object members =>
      obtain rfl := Option.some.inj object
      obtain ⟨msg', text, later⟩ := Option.bind_eq_some_iff.mp extracted
      obtain ⟨code', -, same⟩ := Option.bind_eq_some_iff.mp later
      obtain rfl := congrArg JSONError.msg (Option.some.inj same)
      exact text_ne_of_avoids documented (avoids.2 _ rfl) found clear mark "msg" text
  | _ => cases object

/-- An error comes back as it was sent just when its text needs no escape in JSON. -/
theorem roundTrips_iff_plain (documented : c.Documented toLong numberText) (msg : String) (code : ℤ)
    (fits : -2 ^ 31 ≤ code ∧ code < 2 ^ 31) :
    roundTrip c toLong numberText msg code = some { msg, code } ↔ ∀ d ∈ msg.toList, Plain d :=
  ⟨plain_of_roundTrip documented, roundTrip_of_plain documented fits⟩

end Correct

theorem signedValue_toString (code : ℤ) : signedValue (toString code).toList = code := by
  cases code with
  | ofNat n =>
      have digits : ∀ d ∈ Nat.toDigits 10 n, d.isDigit = true := fun d member =>
        Nat.isDigit_of_mem_toDigits (by decide) (by decide) member
      rw [toList_ofNat]
      unfold signedValue
      split
      next signed =>
        rw [signed] at digits
        exact absurd (digits '-' List.mem_cons_self) (by decide)
      next => rw [Nat.ofDigitChars_ten_toDigits, Int.ofNat_eq_natCast]
  | negSucc n =>
      rw [toList_negSucc]
      exact congrArg (fun digits : ℕ => -(digits : ℤ)) Nat.ofDigitChars_ten_toDigits

theorem libraryConversions_documented :
    libraryConversions.Documented longOfText String.ofList where
  array_broken elements := by
    have printed : libraryConversions.print (.array elements) = "[\n]" := rfl
    rw [printed]
    exact ⟨[']'], rfl⟩
  object_broken members := by
    have printed : libraryConversions.print (.object members) = "\x7b\n\x7d" := rfl
    rw [printed]
    exact ⟨['\x7d'], rfl⟩
  number_plain chars number d member := by
    rw [String.toList_ofList] at member
    exact (isNumber_numeric number d member).plain
  integer_kept _ _ _ := String.ofList_toList
  long_of_integer code _ _ := congrArg some (signedValue_toString code)

theorem hello_roundTrips :
    roundTrip libraryConversions longOfText String.ofList "hello there" 1 =
      some { msg := "hello there", code := 1 } :=
  (roundTrips_iff_plain libraryConversions_documented "hello there" 1 (by decide)).mpr
    (plain_of_all rfl)

theorem quoted_notReturned :
    ¬ ∀ (c : Conversions) (toLong : Json → Option ℤ) (numberText : List Char → String),
      c.Documented toLong numberText → ∀ (msg : String) (code : ℤ),
      -2 ^ 31 ≤ code ∧ code < 2 ^ 31 →
      roundTrip c toLong numberText msg code = some { msg, code } := by
  intro always
  have back := always _ _ _ libraryConversions_documented "unknown symbol \"BTC\"" 1 (by decide)
  have plain := plain_of_roundTrip libraryConversions_documented back
  exact (plain '"' (by decide)).1 rfl

example : roundTrip libraryConversions longOfText String.ofList "a\",\"msg\":\"b" 1 =
    some { msg := "b", code := 1 } := by
  decide +kernel

end SpotGridBot.Core
