import SpotGridBot.Lib.Regex
import SpotGridBot.Utils.Quantities
import SpotGridBot.Utils.Symbols
import SpotGridBot.Utils.Wrapping

namespace SpotGridBot.Utils

/-- The regular expression of `parse<int64_t>` matches the whole text; what `std::stol` throws at a
number out of range is caught. -/
def parseLong (text : List Char) (defaultValue : ℤ) : ℤ :=
  let (negative, digits) := stripSign text
  if !digits.isEmpty && digits.all Char.isDigit then
    let value : ℤ := if negative then -digitsValue digits else digitsValue digits
    if InInt64 value then value else defaultValue
  else defaultValue

theorem parseLong_toString {n : ℤ} (inRange : InInt64 n) (defaultValue : ℤ) :
    parseLong (toString n).toList defaultValue = n := by
  have digits : (Numeral.ofInt n).digits = Nat.toDigits 10 n.natAbs := by
    simp [Numeral.digits, Numeral.ofInt]
  have value : (digitsValue (Nat.toDigits 10 n.natAbs) : ℤ) = n.natAbs := by
    have read : digitsValue (Nat.toDigits 10 n.natAbs) = n.natAbs :=
      Nat.ofDigitChars_eq_foldl.symm.trans Nat.ofDigitChars_ten_toDigits
    rw [read]
  have signed : (if (Numeral.ofInt n).negative then -(n.natAbs : ℤ) else n.natAbs) = n := by
    unfold Numeral.ofInt
    simp only [decide_eq_true_eq]
    split <;> omega
  have all : (Nat.toDigits 10 n.natAbs).all Char.isDigit = true :=
    List.all_eq_true.mpr Numeral.isDigit_toDigits
  have nonempty : (Nat.toDigits 10 n.natAbs).isEmpty = false :=
    List.isEmpty_eq_false_iff.mpr Nat.toDigits_ne_nil
  unfold parseLong
  rw [← Numeral.text_ofInt, Numeral.stripSign_text]
  simp only [digits, value, signed, all, nonempty, inRange, Bool.not_false, Bool.and_self, if_true]

def Side.toString : Side → String
  | .buy => "BUY"
  | .sell => "SELL"
  | .invalid => "INVALID"

def Side.Valid (side : Side) : Prop := side = .buy ∨ side = .sell

instance (side : Side) : Decidable side.Valid := inferInstanceAs (Decidable (_ ∨ _))

namespace Position
open QtyState

def Valid (p : Position) : Prop := p.instrument.Valid ∧ p.dealtCurrency.Valid ∧ p.side.Valid

instance (p : Position) : Decidable p.Valid := inferInstanceAs (Decidable (_ ∧ _ ∧ _))

def id (reg : Registry) (p : Position) : String :=
  let side := String.ofList (p.side.toString.toList.take 1)
  let result := reg.symbol p.instrument.baseCCY ++ reg.symbol p.instrument.quoteCCY ++ "_" ++
    side ++ qtyToString p.instrument p.quantity ++ reg.symbol p.dealtCurrency
  let result := if p.price ≠ 0 then result ++ "@" ++ ToString.toString p.price else result
  if ¬ p.Valid then "*" ++ result ++ "*" else result

/-! ## The regular expression -/

section Parts
open Regex

def blanks : Regex Char := many (· == ' ')

def instrumentChar (c : Char) : Bool := c.isUpper || c == '/'
def instrumentPart : Regex Char := group (plus instrumentChar)

def separator (c : Char) : Bool := c == '_' || c == ':' || c == ' '

def sideInitial (c : Char) : Bool := c == 'B' || c == 'b' || c == 'S' || c == 's'
def sidePart : Regex Char := group (one sideInitial ++ many Char.isAlpha)

def numberChar (c : Char) : Bool := c.isDigit || c == '.'
def quantityPart : Regex Char :=
  group (plus numberChar ++ Regex.optional (one fun c => c == 'm' || c == 'k'))

def dealtPart : Regex Char :=
  Regex.optional (group (one Char.isUpper ++ one Char.isUpper ++ one Char.isUpper))

def pricePart : Regex Char := group (plus numberChar)

/-- ` *([A-Z/]+)[_: ]([BbSs][A-Za-z]*) *([0-9.]+[mk]?) *([A-Z][A-Z][A-Z])? *@ *([0-9.]+) *` -/
def baseRegex : Regex Char :=
  blanks ++ instrumentPart ++ one separator ++ sidePart ++ blanks ++ quantityPart ++ blanks ++
    dealtPart ++ blanks ++ one (· == '@') ++ blanks ++ pricePart ++ blanks

structure Layout where
  lead : List Char
  instrument : List Char
  delimiter : Char
  initial : Char
  letters : List Char
  beforeQuantity : List Char
  number : List Char
  suffix : List Char
  afterQuantity : List Char
  dealt : List Char
  afterDealt : List Char
  beforePrice : List Char
  price : List Char
  trail : List Char
  blank : ∀ c ∈ lead ++ beforeQuantity ++ afterQuantity ++ afterDealt ++ beforePrice ++ trail,
    c = ' '
  instrumentNonempty : instrument ≠ []
  instrumentChars : ∀ c ∈ instrument, instrumentChar c = true
  delimits : separator delimiter = true
  isSide : sideInitial initial = true
  sideLetters : ∀ c ∈ letters, c.isAlpha = true
  numberNonempty : number ≠ []
  numberChars : ∀ c ∈ number, numberChar c = true
  suffixes : suffix = [] ∨ suffix = ['m'] ∨ suffix = ['k']
  dealtLetters : dealt = [] ∨ dealt.length = 3 ∧ ∀ c ∈ dealt, c.isUpper = true
  priceNonempty : price ≠ []
  priceChars : ∀ c ∈ price, numberChar c = true

namespace Layout
variable (l : Layout)

def text : List Char :=
  l.lead ++ l.instrument ++ [l.delimiter] ++ (l.initial :: l.letters) ++ l.beforeQuantity ++
    (l.number ++ l.suffix) ++ l.afterQuantity ++ l.dealt ++ l.afterDealt ++ ['@'] ++
    l.beforePrice ++ l.price ++ l.trail

def captures : Captures Char :=
  [some l.instrument, some (l.initial :: l.letters), some (l.number ++ l.suffix),
    if l.dealt = [] then none else some l.dealt, some l.price]

end Layout

theorem matches_blanks {text : List Char} {captures : Captures Char} :
    Matches blanks text captures ↔ (∀ c ∈ text, c = ' ') ∧ captures = [] := by
  unfold blanks
  rw [matches_many]
  simp only [beq_iff_eq]

theorem matches_groupPlus {p : Char → Bool} {text : List Char} {captures : Captures Char} :
    Matches (group (plus p)) text captures ↔
      text ≠ [] ∧ (∀ c ∈ text, p c = true) ∧ captures = [some text] := by
  rw [matches_group]
  simp only [matches_plus]
  constructor
  · rintro ⟨inner, ⟨nonempty, all, rfl⟩, rfl⟩
    exact ⟨nonempty, all, rfl⟩
  · rintro ⟨nonempty, all, rfl⟩
    exact ⟨[], ⟨nonempty, all, rfl⟩, rfl⟩

theorem matches_sidePart {text : List Char} {captures : Captures Char} :
    Matches sidePart text captures ↔ ∃ initial letters, sideInitial initial = true ∧
      (∀ c ∈ letters, c.isAlpha = true) ∧ text = initial :: letters ∧ captures = [some text] := by
  unfold sidePart
  simp only [matches_group, matches_append, matches_one, matches_many]
  constructor
  · rintro ⟨_, ⟨_, letters, _, _, ⟨initial, here, rfl, rfl⟩, ⟨all, rfl⟩, rfl, rfl⟩, rfl⟩
    exact ⟨initial, letters, here, all, rfl, rfl⟩
  · rintro ⟨initial, letters, here, all, rfl, rfl⟩
    exact ⟨[], ⟨[initial], letters, [], [], ⟨initial, here, rfl, rfl⟩, ⟨all, rfl⟩, rfl, rfl⟩, rfl⟩

theorem matches_quantityPart {text : List Char} {captures : Captures Char} :
    Matches quantityPart text captures ↔ ∃ number suffix, number ≠ [] ∧
      (∀ c ∈ number, numberChar c = true) ∧ (suffix = [] ∨ suffix = ['m'] ∨ suffix = ['k']) ∧
        text = number ++ suffix ∧ captures = [some text] := by
  unfold quantityPart
  simp only [matches_group, matches_append, matches_plus, matches_optional, matches_one, groups,
    List.replicate_zero, Bool.or_eq_true, beq_iff_eq]
  constructor
  · rintro ⟨_, ⟨number, suffix, _, _, ⟨nonempty, all, rfl⟩, ends, rfl, rfl⟩, rfl⟩
    obtain ⟨c, rfl | rfl, rfl, rfl⟩ | ⟨rfl, rfl⟩ := ends
    · exact ⟨number, ['m'], nonempty, all, by simp, rfl, rfl⟩
    · exact ⟨number, ['k'], nonempty, all, by simp, rfl, rfl⟩
    · exact ⟨number, [], nonempty, all, by simp, rfl, rfl⟩
  · rintro ⟨number, suffix, nonempty, all, ends, rfl, rfl⟩
    refine ⟨[], ⟨number, suffix, [], [], ⟨nonempty, all, rfl⟩, ?_, rfl, rfl⟩, rfl⟩
    obtain rfl | rfl | rfl := ends
    · exact .inr ⟨rfl, rfl⟩
    · exact .inl ⟨'m', .inl rfl, rfl, rfl⟩
    · exact .inl ⟨'k', .inr rfl, rfl, rfl⟩

theorem matches_dealtPart {text : List Char} {captures : Captures Char} :
    Matches dealtPart text captures ↔
      (text = [] ∨ text.length = 3 ∧ ∀ c ∈ text, c.isUpper = true) ∧
        captures = [if text = [] then none else some text] := by
  unfold dealtPart
  simp only [matches_optional, matches_group, matches_append, matches_one]
  constructor
  · rintro (⟨_, ⟨_, _, _, _, ⟨_, _, _, _, ⟨c, first, rfl, rfl⟩, ⟨c', second, rfl, rfl⟩, rfl, rfl⟩,
      ⟨c'', third, rfl, rfl⟩, rfl, rfl⟩, rfl⟩ | ⟨rfl, rfl⟩)
    · exact ⟨.inr ⟨rfl, by simp [first, second, third]⟩, rfl⟩
    · exact ⟨.inl rfl, rfl⟩
  · rintro ⟨rfl | ⟨three, all⟩, rfl⟩
    · exact .inr ⟨rfl, rfl⟩
    · obtain ⟨c, c', c'', rfl⟩ := List.length_eq_three.mp three
      simp only [List.forall_mem_cons] at all
      exact .inl ⟨[], ⟨[c, c'], [c''], [], [], ⟨[c], [c'], [], [], ⟨c, all.1, rfl, rfl⟩,
        ⟨c', all.2.1, rfl, rfl⟩, rfl, rfl⟩, ⟨c'', all.2.2.1, rfl, rfl⟩, rfl, rfl⟩, rfl⟩

theorem exists_layout {text : List Char} {captures : Captures Char}
    (inside : Matches baseRegex text captures) :
    ∃ l : Layout, text = l.text ∧ captures = l.captures := by
  unfold baseRegex instrumentPart pricePart at inside
  obtain ⟨_, trail, _, _, inside1, last, rfl, rfl⟩ := matches_append.mp inside
  obtain ⟨_, price, _, _, inside2, five, rfl, rfl⟩ := matches_append.mp inside1
  obtain ⟨_, beforePrice, _, _, inside3, sixth, rfl, rfl⟩ := matches_append.mp inside2
  obtain ⟨_, _, _, _, inside4, sign, rfl, rfl⟩ := matches_append.mp inside3
  obtain ⟨_, afterDealt, _, _, inside5, fifth, rfl, rfl⟩ := matches_append.mp inside4
  obtain ⟨_, dealt, _, _, inside6, four, rfl, rfl⟩ := matches_append.mp inside5
  obtain ⟨_, afterQuantity, _, _, inside7, fourth, rfl, rfl⟩ := matches_append.mp inside6
  obtain ⟨_, _, _, _, inside8, three, rfl, rfl⟩ := matches_append.mp inside7
  obtain ⟨_, beforeQuantity, _, _, inside9, third, rfl, rfl⟩ := matches_append.mp inside8
  obtain ⟨_, _, _, _, inside10, two, rfl, rfl⟩ := matches_append.mp inside9
  obtain ⟨_, _, _, _, inside11, between, rfl, rfl⟩ := matches_append.mp inside10
  obtain ⟨lead, instrument, _, _, first, one, rfl, rfl⟩ := matches_append.mp inside11
  obtain ⟨blank₁, rfl⟩ := matches_blanks.mp first
  obtain ⟨instrumentNonempty, instrumentChars, rfl⟩ := matches_groupPlus.mp one
  obtain ⟨delimiter, delimits, rfl, rfl⟩ := matches_one.mp between
  obtain ⟨initial, letters, isSide, sideLetters, rfl, rfl⟩ := matches_sidePart.mp two
  obtain ⟨blank₂, rfl⟩ := matches_blanks.mp third
  obtain ⟨number, suffix, numberNonempty, numberChars, suffixes, rfl, rfl⟩ :=
    matches_quantityPart.mp three
  obtain ⟨blank₃, rfl⟩ := matches_blanks.mp fourth
  obtain ⟨dealtLetters, rfl⟩ := matches_dealtPart.mp four
  obtain ⟨blank₄, rfl⟩ := matches_blanks.mp fifth
  obtain ⟨at', here, rfl, rfl⟩ := matches_one.mp sign
  obtain rfl : at' = '@' := by simpa using here
  obtain ⟨blank₅, rfl⟩ := matches_blanks.mp sixth
  obtain ⟨priceNonempty, priceChars, rfl⟩ := matches_groupPlus.mp five
  obtain ⟨blank₆, rfl⟩ := matches_blanks.mp last
  have blank : ∀ c ∈ lead ++ beforeQuantity ++ afterQuantity ++ afterDealt ++ beforePrice ++ trail,
      c = ' ' := by
    simp only [List.forall_mem_append]
    exact ⟨⟨⟨⟨⟨blank₁, blank₂⟩, blank₃⟩, blank₄⟩, blank₅⟩, blank₆⟩
  exact ⟨⟨lead, instrument, delimiter, initial, letters, beforeQuantity, number, suffix,
    afterQuantity, dealt, afterDealt, beforePrice, price, trail, blank, instrumentNonempty,
    instrumentChars, delimits, isSide, sideLetters, numberNonempty, numberChars, suffixes,
    dealtLetters, priceNonempty, priceChars⟩, rfl, rfl⟩

theorem Layout.found (l : Layout) : Matches baseRegex l.text l.captures := by
  have blank := l.blank
  simp only [List.forall_mem_append] at blank
  obtain ⟨⟨⟨⟨⟨lead, beforeQuantity⟩, afterQuantity⟩, afterDealt⟩, beforePrice⟩, trail⟩ := blank
  have inside := (matches_blanks.mpr ⟨lead, rfl⟩).seq
    (matches_groupPlus.mpr ⟨l.instrumentNonempty, l.instrumentChars, rfl⟩)
  have inside := inside.seq (.one l.delimits)
  have inside := inside.seq
    (matches_sidePart.mpr ⟨l.initial, l.letters, l.isSide, l.sideLetters, rfl, rfl⟩)
  have inside := inside.seq (matches_blanks.mpr ⟨beforeQuantity, rfl⟩)
  have inside := inside.seq (matches_quantityPart.mpr
    ⟨l.number, l.suffix, l.numberNonempty, l.numberChars, l.suffixes, rfl, rfl⟩)
  have inside := inside.seq (matches_blanks.mpr ⟨afterQuantity, rfl⟩)
  have inside := inside.seq (matches_dealtPart.mpr ⟨l.dealtLetters, rfl⟩)
  have inside := inside.seq (matches_blanks.mpr ⟨afterDealt, rfl⟩)
  have inside := inside.seq (.one (p := (· == '@')) (c := '@') rfl)
  have inside := inside.seq (matches_blanks.mpr ⟨beforePrice, rfl⟩)
  have inside := inside.seq (matches_groupPlus.mpr ⟨l.priceNonempty, l.priceChars, rfl⟩)
  exact inside.seq (matches_blanks.mpr ⟨trail, rfl⟩)

/-! ## Characters -/

theorem isUpper_iff {c : Char} : c.isUpper = true ↔ 65 ≤ c.toNat ∧ c.toNat ≤ 90 :=
  decide_eq_true_iff

theorem isLower_iff {c : Char} : c.isLower = true ↔ 97 ≤ c.toNat ∧ c.toNat ≤ 122 := by
  delta Char.isLower
  rw [Bool.and_eq_true, decide_eq_true_eq, decide_eq_true_eq]
  exact Iff.rfl

theorem isDigit_iff {c : Char} : c.isDigit = true ↔ 48 ≤ c.toNat ∧ c.toNat ≤ 57 :=
  Char.isDigit_iff_toNat

theorem isAlpha_iff {c : Char} : c.isAlpha = true ↔
    65 ≤ c.toNat ∧ c.toNat ≤ 90 ∨ 97 ≤ c.toNat ∧ c.toNat ≤ 122 := by
  rw [← isUpper_iff, ← isLower_iff]
  exact Bool.or_eq_true_iff

theorem instrumentChar_iff {c : Char} :
    instrumentChar c = true ↔ 65 ≤ c.toNat ∧ c.toNat ≤ 90 ∨ c.toNat = 47 := by
  unfold instrumentChar
  rw [Bool.or_eq_true, isUpper_iff, beq_iff_eq, ← Char.toNat_inj]
  exact Iff.rfl

theorem numberChar_iff {c : Char} :
    numberChar c = true ↔ 48 ≤ c.toNat ∧ c.toNat ≤ 57 ∨ c.toNat = 46 := by
  unfold numberChar
  rw [Bool.or_eq_true, isDigit_iff, beq_iff_eq, ← Char.toNat_inj]
  exact Iff.rfl

theorem blank_iff {c : Char} : (c == ' ') = true ↔ c.toNat = 32 := by
  rw [beq_iff_eq, ← Char.toNat_inj]
  exact Iff.rfl

theorem not_of_instrumentChar {c : Char} (here : instrumentChar c = true) :
    (c == ' ') = false ∧ numberChar c = false ∧ c.isLower = false := by
  simp only [Bool.eq_false_iff, ne_eq, blank_iff, numberChar_iff, isLower_iff]
  rw [instrumentChar_iff] at here
  omega

theorem not_of_numberChar {c : Char} (here : numberChar c = true) :
    (c == ' ') = false ∧ c.isAlpha = false := by
  simp only [Bool.eq_false_iff, ne_eq, blank_iff, isAlpha_iff]
  rw [numberChar_iff] at here
  omega

theorem not_of_isLower {c : Char} (here : c.isLower = true) : numberChar c = false := by
  rw [Bool.eq_false_iff, ne_eq, numberChar_iff]
  rw [isLower_iff] at here
  omega

theorem not_of_blank {c : Char} (here : c = ' ') :
    instrumentChar c = false ∧ numberChar c = false ∧ c.isLower = false := by
  rw [here]
  decide

theorem not_reserved {c : Char}
    (here : instrumentChar c = true ∨ numberChar c = true ∨ c.isLower = true) :
    c ≠ '@' ∧ c ≠ '\x00' := by
  rw [instrumentChar_iff, numberChar_iff, isLower_iff] at here
  constructor
  · rintro rfl
    have code : '@'.toNat = 64 := rfl
    omega
  · rintro rfl
    have code : '\x00'.toNat = 0 := rfl
    omega

theorem not_of_separator {c : Char} (here : separator c = true) : instrumentChar c = false := by
  unfold separator at here
  simp only [Bool.or_eq_true, beq_iff_eq] at here
  obtain (rfl | rfl) | rfl := here <;> decide

/-! ## The parts of an id -/

theorem Layout.suffixChars (l : Layout) : ∀ c ∈ l.suffix, c.isLower = true := by
  obtain empty | million | thousand := l.suffixes
  · simp [empty]
  · simp [million]
  · simp [thousand]

theorem Layout.dealtChars (l : Layout) : ∀ c ∈ l.dealt, instrumentChar c = true := by
  intro c member
  obtain empty | ⟨-, all⟩ := l.dealtLetters
  · rw [empty] at member
    cases member
  · rw [instrumentChar, all c member, Bool.true_or]

def idText (instrument : List Char) (initial : Char) (number suffix dealt price : List Char) :
    List Char :=
  instrument ++ '_' :: initial :: (number ++ (suffix ++ (dealt ++ '@' :: price)))

theorem Layout.blanks (l : Layout) : (∀ c ∈ l.lead, c = ' ') ∧ (∀ c ∈ l.beforeQuantity, c = ' ') ∧
    (∀ c ∈ l.afterQuantity, c = ' ') ∧ (∀ c ∈ l.afterDealt, c = ' ') ∧
    (∀ c ∈ l.beforePrice, c = ' ') ∧ ∀ c ∈ l.trail, c = ' ' := by
  have blank := l.blank
  simp only [List.forall_mem_append] at blank
  obtain ⟨⟨⟨⟨⟨lead, beforeQuantity⟩, afterQuantity⟩, afterDealt⟩, beforePrice⟩, trail⟩ := blank
  exact ⟨lead, beforeQuantity, afterQuantity, afterDealt, beforePrice, trail⟩

theorem nil_of_blanks {cs rest rest' : List Char} (whole : cs ++ rest = rest')
    (blank : ∀ c ∈ cs, c = ' ') (stops : ∀ c ∈ rest'.head?, (c == ' ') = false) : cs = [] :=
  nil_of_head whole (fun c member => beq_iff_eq.mpr (blank c member)) stops

theorem atSign {rest : List Char} : ∀ c ∈ ('@' :: rest).head?,
    instrumentChar c = false ∧ numberChar c = false ∧ c.isLower = false := by
  intro c here
  cases here
  decide

section Unique
variable (l : Layout) {instrument number suffix dealt price rest : List Char} {initial : Char}

theorem Layout.front_unique
    (whole : l.lead ++ (l.instrument ++ (l.delimiter :: l.initial :: (l.letters ++
      (l.beforeQuantity ++ rest)))) = instrument ++ '_' :: initial :: (number ++ price))
    (instrumentChars : ∀ c ∈ instrument, instrumentChar c = true)
    (numberNonempty : number ≠ []) (numberChars : ∀ c ∈ number, numberChar c = true) :
    l.instrument = instrument ∧ l.initial = initial ∧ l.letters = [] ∧ rest = number ++ price := by
  have noLead : l.lead = [] := by
    refine nil_of_blanks whole l.blanks.1 (head_append (fun c member => ?_) ?_)
    · exact (not_of_instrumentChar (instrumentChars c member)).1
    · simp
  rw [noLead, List.nil_append] at whole
  obtain ⟨sameInstrument, whole⟩ := cut_unique whole l.instrumentChars instrumentChars
    (by simpa using not_of_separator l.delimits) (by simp; decide)
  obtain ⟨-, whole⟩ := List.cons.inj whole
  obtain ⟨sameInitial, whole⟩ := List.cons.inj whole
  obtain ⟨c, number', first⟩ := List.exists_cons_of_ne_nil numberNonempty
  have firstChar := not_of_numberChar (numberChars c (first ▸ List.mem_cons_self))
  have noLetters : l.letters = [] := by
    refine nil_of_head whole l.sideLetters ?_
    simpa [first] using firstChar.2
  rw [noLetters, List.nil_append] at whole
  have noBlank : l.beforeQuantity = [] := by
    refine nil_of_blanks whole l.blanks.2.1 ?_
    simpa [first] using firstChar.1
  rw [noBlank, List.nil_append] at whole
  exact ⟨sameInstrument, sameInitial, noLetters, whole⟩

theorem Layout.quantity_unique
    (whole : l.number ++ (l.suffix ++ (l.afterQuantity ++ (l.dealt ++ (l.afterDealt ++
      '@' :: rest)))) = number ++ (suffix ++ (dealt ++ '@' :: price)))
    (numberChars : ∀ c ∈ number, numberChar c = true)
    (suffixChars : ∀ c ∈ suffix, c.isLower = true)
    (dealtChars : ∀ c ∈ dealt, instrumentChar c = true) :
    l.number = number ∧ l.suffix = suffix ∧
      l.dealt ++ (l.afterDealt ++ '@' :: rest) = dealt ++ '@' :: price := by
  obtain ⟨-, -, afterQuantity, afterDealt, -, -⟩ := l.blanks
  obtain ⟨sameNumber, whole⟩ := cut_unique whole l.numberChars numberChars
    (head_append (fun c member => not_of_isLower (l.suffixChars c member))
      (head_append (fun c member => (not_of_blank (afterQuantity c member)).2.1)
        (head_append (fun c member => (not_of_instrumentChar (l.dealtChars c member)).2.1)
          (head_append (fun c member => (not_of_blank (afterDealt c member)).2.1)
            fun c here => (atSign c here).2.1))))
    (head_append (fun c member => not_of_isLower (suffixChars c member))
      (head_append (fun c member => (not_of_instrumentChar (dealtChars c member)).2.1)
        fun c here => (atSign c here).2.1))
  obtain ⟨sameSuffix, whole⟩ := cut_unique whole l.suffixChars suffixChars
    (head_append (fun c member => (not_of_blank (afterQuantity c member)).2.2)
      (head_append (fun c member => (not_of_instrumentChar (l.dealtChars c member)).2.2)
        (head_append (fun c member => (not_of_blank (afterDealt c member)).2.2)
          fun c here => (atSign c here).2.2)))
    (head_append (fun c member => (not_of_instrumentChar (dealtChars c member)).2.2)
      fun c here => (atSign c here).2.2)
  have noBlank : l.afterQuantity = [] := by
    refine nil_of_blanks whole afterQuantity (head_append (fun c member => ?_) ?_)
    · exact (not_of_instrumentChar (dealtChars c member)).1
    · simp
  rw [noBlank, List.nil_append] at whole
  exact ⟨sameNumber, sameSuffix, whole⟩

theorem Layout.back_unique
    (whole : l.dealt ++ (l.afterDealt ++ '@' :: (l.beforePrice ++ (l.price ++ l.trail))) =
      dealt ++ '@' :: price)
    (dealtChars : ∀ c ∈ dealt, instrumentChar c = true)
    (priceChars : ∀ c ∈ price, numberChar c = true) : l.dealt = dealt ∧ l.price = price := by
  obtain ⟨-, -, -, afterDealt, beforePrice, trail⟩ := l.blanks
  obtain ⟨sameDealt, whole⟩ := cut_unique whole l.dealtChars dealtChars
    (head_append (fun c member => (not_of_blank (afterDealt c member)).1)
      fun c here => (atSign c here).1)
    fun c here => (atSign c here).1
  have noBlank : l.afterDealt = [] := nil_of_blanks whole afterDealt (by simp)
  rw [noBlank, List.nil_append] at whole
  obtain ⟨-, whole⟩ := List.cons.inj whole
  have noBlank' : l.beforePrice = [] := by
    refine nil_of_blanks whole beforePrice fun c here => ?_
    exact (not_of_numberChar (priceChars c (List.mem_of_mem_head? here))).1
  rw [noBlank', List.nil_append, ← List.append_nil price] at whole
  obtain ⟨samePrice, -⟩ := cut_unique whole l.priceChars priceChars
    (fun c here => (not_of_blank (trail c (List.mem_of_mem_head? here))).2.1) (by simp)
  exact ⟨sameDealt, samePrice⟩

theorem Layout.parts_unique (text : l.text = idText instrument initial number suffix dealt price)
    (instrumentChars : ∀ c ∈ instrument, instrumentChar c = true)
    (numberNonempty : number ≠ []) (numberChars : ∀ c ∈ number, numberChar c = true)
    (suffixChars : ∀ c ∈ suffix, c.isLower = true)
    (dealtChars : ∀ c ∈ dealt, instrumentChar c = true)
    (priceChars : ∀ c ∈ price, numberChar c = true) :
    l.instrument = instrument ∧ l.initial = initial ∧ l.letters = [] ∧ l.number = number ∧
      l.suffix = suffix ∧ l.dealt = dealt ∧ l.price = price := by
  have whole : l.lead ++ (l.instrument ++ (l.delimiter :: l.initial :: (l.letters ++
      (l.beforeQuantity ++ (l.number ++ (l.suffix ++ (l.afterQuantity ++ (l.dealt ++
        (l.afterDealt ++ '@' :: (l.beforePrice ++ (l.price ++ l.trail))))))))))) =
      instrument ++ '_' :: initial :: (number ++ (suffix ++ (dealt ++ '@' :: price))) := by
    unfold idText at text
    rw [← text]
    simp [Layout.text]
  obtain ⟨sameInstrument, sameInitial, noLetters, whole⟩ :=
    l.front_unique whole instrumentChars numberNonempty numberChars
  obtain ⟨sameNumber, sameSuffix, whole⟩ :=
    l.quantity_unique whole numberChars suffixChars dealtChars
  obtain ⟨sameDealt, samePrice⟩ := l.back_unique whole dealtChars priceChars
  exact ⟨sameInstrument, sameInitial, noLetters, sameNumber, sameSuffix, sameDealt, samePrice⟩

end Unique

/-! ## What is printed -/

theorem numberChars_digits (x : Numeral) : ∀ c ∈ x.digits, numberChar c = true := by
  have digit : ∀ {c : Char}, c.isDigit = true → numberChar c = true := by
    intro c here
    rw [numberChar, here, Bool.true_or]
  unfold Numeral.digits
  refine List.forall_mem_append.mpr ⟨fun c member => digit (x.wholeDigits c member), ?_⟩
  split
  · exact fun c member => absurd member List.not_mem_nil
  · refine List.forall_mem_cons.mpr ⟨by decide, fun c member => ?_⟩
    exact digit (x.fractionDigits c member)

theorem digits_ne_nil (x : Numeral) : x.digits ≠ [] := by
  obtain ⟨c, cs, first, -⟩ := Numeral.digits_cons x
  simp [first]

theorem toString_parts {n : ℤ} (nonneg : 0 ≤ n) :
    (ToString.toString n).toList = (Numeral.ofInt n).digits := by
  have plus : ¬ (Numeral.ofInt n).negative = true := by simpa [Numeral.ofInt] using nonneg
  rw [← Numeral.text_ofInt, Numeral.text, if_neg plus]

theorem format_parts {decimals : ℕ} {value : ℚ} (nonneg : 0 ≤ value) :
    (format decimals value).toList = (printed decimals value).digits := by
  have plus : ¬ (printed decimals value).negative = true := by
    simpa [printed, Numeral.fixed] using nonneg
  rw [format, String.toList_ofList, Numeral.text, if_neg plus]

def Billions (cp : CurrencyPair) (qty : ℤ) : Prop := cp.IsFX ∧ 100000000000 ∣ qty

instance (cp : CurrencyPair) (qty : ℤ) : Decidable (Billions cp qty) :=
  inferInstanceAs (Decidable (_ ∧ _))

theorem qtyToString_parts (cp : CurrencyPair) {qty : ℤ} (positive : 0 < qty) :
    ∃ (x : Numeral) (suffix : List Char), (qtyToString cp qty).toList = x.digits ++ suffix ∧
      (Billions cp qty ∧ suffix = ['b'] ∨
        ¬ Billions cp qty ∧ (suffix = [] ∨ suffix = ['m'] ∨ suffix = ['k'])) := by
  have nonneg : 0 ≤ cp.qtyToDouble qty := by
    unfold CurrencyPair.qtyToDouble
    have numerator : (0 : ℚ) ≤ qty := by exact_mod_cast positive.le
    refine div_nonneg numerator ?_
    split <;> decide +kernel
  have large : 0 ≤ qty / 100000 := by omega
  have printedInt : ∀ {n : ℤ} (suffix : List Char), 0 ≤ n →
      (ToString.toString n).toList ++ suffix = (Numeral.ofInt n).digits ++ suffix :=
    fun suffix nonneg => by rw [toString_parts nonneg]
  unfold qtyToString
  rw [if_neg positive.ne']
  by_cases fx : cp.IsFX
  · simp only [fx, not_true_eq_false, if_false, Int.tmod_eq_emod_of_nonneg positive.le,
      Int.tdiv_eq_ediv_of_nonneg positive.le, Int.tmod_eq_emod_of_nonneg large,
      Int.tdiv_eq_ediv_of_nonneg large]
    by_cases thousands : qty % 100000 = 0
    · rw [if_pos thousands]
      by_cases billions : qty / 100000 % 1000000 = 0
      · have isBillions : Billions cp qty := ⟨fx, by omega⟩
        rw [if_pos billions]
        refine ⟨.ofInt (qty / 100000 / 1000000), ['b'], ?_, .inl ⟨isBillions, rfl⟩⟩
        rw [String.toList_append]
        exact printedInt _ (by omega)
      · have small : ¬ Billions cp qty := fun isBillions => by
          have divides := isBillions.2
          omega
        rw [if_neg billions]
        by_cases millions : qty / 100000 % 1000 = 0
        · rw [if_pos millions]
          refine ⟨.ofInt (qty / 100000 / 1000), ['m'], ?_, .inr ⟨small, .inr (.inl rfl)⟩⟩
          rw [String.toList_append]
          exact printedInt _ (by omega)
        · rw [if_neg millions]
          refine ⟨.ofInt (qty / 100000), ['k'], ?_, .inr ⟨small, .inr (.inr rfl)⟩⟩
          rw [String.toList_append]
          exact printedInt _ large
    · have small : ¬ Billions cp qty := fun isBillions => by
        have divides := isBillions.2
        omega
      rw [if_neg thousands]
      by_cases whole : qty % 100 = 0
      · rw [if_pos whole]
        exact ⟨.ofInt (qty / 100), [], by rw [List.append_nil, toString_parts (by omega)],
          .inr ⟨small, .inl rfl⟩⟩
      · rw [if_neg whole]
        exact ⟨printed 2 (cp.qtyToDouble qty), [], by rw [List.append_nil, format_parts nonneg],
          .inr ⟨small, .inl rfl⟩⟩
  · have small : ¬ Billions cp qty := fun isBillions => fx isBillions.1
    rw [if_pos fx]
    exact ⟨printed 4 (cp.qtyToDouble qty), [], by rw [List.append_nil, format_parts nonneg],
      .inr ⟨small, .inl rfl⟩⟩

def Accepted (instrument suffix dealt : List Char) : Prop :=
  instrument ≠ [] ∧ (suffix = [] ∨ suffix = ['m'] ∨ suffix = ['k']) ∧
    (dealt = [] ∨ dealt.length = 3 ∧ ∀ c ∈ dealt, c.isUpper = true)

section Text
variable {instrument number suffix dealt price : List Char} {initial : Char}
  (instrumentChars : ∀ c ∈ instrument, instrumentChar c = true)
  (numberNonempty : number ≠ []) (numberChars : ∀ c ∈ number, numberChar c = true)
  (suffixChars : ∀ c ∈ suffix, c.isLower = true)
  (dealtChars : ∀ c ∈ dealt, instrumentChar c = true)
  (priceChars : ∀ c ∈ price, numberChar c = true)
include instrumentChars numberNonempty numberChars suffixChars dealtChars priceChars

theorem matchWhole_idText (priceNonempty : price ≠ []) (isSide : sideInitial initial = true)
    (accepted : Accepted instrument suffix dealt) :
    baseRegex.matchWhole (idText instrument initial number suffix dealt price) =
      some [some instrument, some [initial], some (number ++ suffix),
        if dealt = [] then none else some dealt, some price] := by
  let l : Layout := ⟨[], instrument, '_', initial, [], [], number, suffix, [], dealt, [], [], price,
    [], by simp, accepted.1, instrumentChars, rfl, isSide, by simp, numberNonempty, numberChars,
    accepted.2.1, accepted.2.2, priceNonempty, priceChars⟩
  have text : l.text = idText instrument initial number suffix dealt price := by
    simp [l, Layout.text, idText]
  rw [← text]
  refine matchWhole_eq_some l.found fun captures inside => ?_
  obtain ⟨l', same, rfl⟩ := exists_layout inside
  obtain ⟨h₁, h₂, h₃, h₄, h₅, h₆, h₇⟩ := l'.parts_unique (same.symm.trans text) instrumentChars
    numberNonempty numberChars suffixChars dealtChars priceChars
  simp [Layout.captures, h₁, h₂, h₃, h₄, h₅, h₆, h₇]

theorem matchWhole_idText_none (refused : ¬ Accepted instrument suffix dealt) :
    baseRegex.matchWhole (idText instrument initial number suffix dealt price) = none := by
  refine matchWhole_eq_none fun captures inside => refused ?_
  obtain ⟨l, same, -⟩ := exists_layout inside
  obtain ⟨sameInstrument, -, -, -, sameSuffix, sameDealt, -⟩ := l.parts_unique same.symm
    instrumentChars numberNonempty numberChars suffixChars dealtChars priceChars
  exact ⟨sameInstrument ▸ l.instrumentNonempty, sameSuffix ▸ l.suffixes,
    sameDealt ▸ l.dealtLetters⟩

end Text

end Parts

def withDefaultPrice (repr : List Char) : List Char :=
  if '@' ∈ repr then repr else repr ++ ['@', '0']

def ofMatch (reg : Registry) (baseMatch : Regex.Captures Char) : Position :=
  let instrument := reg.parse (Regex.str baseMatch 1)
  let dealt := Regex.str baseMatch 4
  let prcString := Regex.str baseMatch 5
  { instrument := instrument
    dealtCurrency := if dealt.isEmpty then instrument.baseCCY else reg.currency dealt
    side := if (Regex.str baseMatch 2).head?.map Char.toUpper = some 'S' then .sell else .buy
    quantities
      | qsOpen => stringToQty instrument (String.ofList (Regex.str baseMatch 3))
      | qsPending => 0
      | qsFilled => 0
    price :=
      if '.' ∈ prcString then reg.dblToCpip instrument (parseDouble prcString 0)
      else parseLong prcString 0
    pnl := 0 }

/-- The constructor from a string; a `char *` ends at the first null character. -/
def ofString (reg : Registry) (stringRepresentation : String) : Position :=
  let repr := withDefaultPrice stringRepresentation.toList
  match baseRegex.matchWhole (repr.takeWhile (· ≠ '\x00')) with
  | none => create ⟨Currency.none, Currency.none⟩ Currency.none .invalid 0 0
  | some baseMatch => ofMatch reg baseMatch

/-! ## The round trip -/

def pairText (reg : Registry) (cp : CurrencyPair) : List Char :=
  (reg.symbol cp.baseCCY).toList ++ (reg.symbol cp.quoteCCY).toList

structure SameTerms (p q : Position) : Prop where
  instrument : p.instrument = q.instrument
  dealtCurrency : p.dealtCurrency = q.dealtCurrency
  side : p.side = q.side
  price : p.price = q.price
  quantity : p.quantities qsOpen = q.quantities qsOpen

structure Opened (reg : Registry) (p : Position) : Prop where
  valid : p.Valid
  base : (reg.valToStr p.instrument.baseCCY).isSome
  quote : (reg.valToStr p.instrument.quoteCCY).isSome
  dealt : p.dealtCurrency = p.instrument.baseCCY ∨ p.dealtCurrency = p.instrument.quoteCCY
  pending : p.quantities qsPending = 0
  filled : p.quantities qsFilled = 0
  price : 0 ≤ p.price ∧ p.price < 2 ^ 63
  quantity : 0 < p.quantities qsOpen ∧ p.quantities qsOpen < 2 ^ 63

structure Readable (reg : Registry) (p : Position) : Prop where
  letters : ∀ c ∈ pairText reg p.instrument, instrumentChar c = true
  instrument : reg.parse (pairText reg p.instrument) = p.instrument
  dealt : (reg.symbol p.dealtCurrency).toList = [] ∧ p.dealtCurrency = p.instrument.baseCCY ∨
    (reg.symbol p.dealtCurrency).toList.length = 3 ∧
      ∀ c ∈ (reg.symbol p.dealtCurrency).toList, c.isUpper = true
  quantity : if p.instrument.IsFX then ¬ 100000000000 ∣ p.quantities qsOpen
    else 10000 ∣ p.quantities qsOpen

variable {reg : Registry} {p : Position}

theorem Opened.quantity_eq (opened : Opened reg p) : p.quantity = p.quantities qsOpen := by
  unfold Position.quantity
  rw [opened.pending, opened.filled, add_zero, add_zero]
  exact int64_eq (by linarith [opened.quantity.1]) opened.quantity.2

def initial (p : Position) : Char := if p.side = .sell then 'S' else 'B'

theorem sideInitial_initial (p : Position) : sideInitial p.initial = true := by
  unfold initial
  split <;> rfl

theorem Opened.side_initial (opened : Opened reg p) :
    p.side.toString.toList.take 1 = [p.initial] := by
  unfold initial
  obtain buy | sell := opened.valid.2.2
  · rw [buy]
    rfl
  · rw [sell]
    rfl

theorem Opened.priceNonempty (opened : Opened reg p) :
    (ToString.toString p.price).toList ≠ [] := by
  rw [toString_parts opened.price.1]
  exact digits_ne_nil _

theorem Opened.priceChars (opened : Opened reg p) :
    ∀ c ∈ (ToString.toString p.price).toList, numberChar c = true := by
  rw [toString_parts opened.price.1]
  exact numberChars_digits _

theorem Opened.dealtChars (opened : Opened reg p)
    (letters : ∀ c ∈ pairText reg p.instrument, instrumentChar c = true) :
    ∀ c ∈ (reg.symbol p.dealtCurrency).toList, instrumentChar c = true := by
  obtain base | quote := opened.dealt
  · rw [base]
    exact fun c member => letters c (List.mem_append_left _ member)
  · rw [quote]
    exact fun c member => letters c (List.mem_append_right _ member)

theorem Opened.withDefaultPrice_id (opened : Opened reg p) {body : List Char}
    (parts : body = pairText reg p.instrument ++ '_' :: p.initial ::
      ((qtyToString p.instrument p.quantity).toList ++ (reg.symbol p.dealtCurrency).toList))
    (plain : '@' ∉ body) :
    withDefaultPrice (p.id reg).toList = body ++ '@' :: (ToString.toString p.price).toList := by
  have printedId : (p.id reg).toList =
      if p.price ≠ 0 then body ++ '@' :: (ToString.toString p.price).toList else body := by
    unfold id
    rw [if_neg (not_not.mpr opened.valid), opened.side_initial]
    by_cases zero : p.price = 0
    · rw [if_neg (not_not.mpr zero), if_neg (not_not.mpr zero)]
      simp [String.toList_append, parts, pairText]
    · rw [if_pos zero, if_pos zero]
      simp [String.toList_append, parts, pairText]
  rw [printedId]
  unfold withDefaultPrice
  by_cases zero : p.price = 0
  · have zeroText : (ToString.toString p.price).toList = ['0'] := by
      rw [zero]
      rfl
    rw [if_neg (not_not.mpr zero), if_neg plain, zeroText]
  · rw [if_pos zero, if_pos (by simp)]

theorem Opened.repr_id (opened : Opened reg p) {number suffix : List Char}
    (letters : ∀ c ∈ pairText reg p.instrument, instrumentChar c = true)
    (printed : (qtyToString p.instrument p.quantity).toList = number ++ suffix)
    (numberChars : ∀ c ∈ number, numberChar c = true)
    (suffixChars : ∀ c ∈ suffix, c.isLower = true) :
    (withDefaultPrice (p.id reg).toList).takeWhile (· ≠ '\x00') =
      idText (pairText reg p.instrument) p.initial number suffix
        (reg.symbol p.dealtCurrency).toList (ToString.toString p.price).toList := by
  set body := pairText reg p.instrument ++
    '_' :: p.initial :: (number ++ (suffix ++ (reg.symbol p.dealtCurrency).toList)) with body_eq
  have plain : ∀ c ∈ body, c ≠ '@' ∧ c ≠ '\x00' := by
    have initialPlain : p.initial ≠ '@' ∧ p.initial ≠ '\x00' := by
      unfold initial
      split <;> decide
    rw [body_eq]
    simp only [List.forall_mem_append, List.forall_mem_cons]
    exact ⟨fun c member => not_reserved (.inl (letters c member)), by decide, initialPlain,
      fun c member => not_reserved (.inr (.inl (numberChars c member))),
      fun c member => not_reserved (.inr (.inr (suffixChars c member))),
      fun c member => not_reserved (.inl (opened.dealtChars letters c member))⟩
  have withPrice := opened.withDefaultPrice_id
    (by rw [printed, body_eq, List.append_assoc]) fun member => (plain _ member).1 rfl
  have whole : body ++ '@' :: (ToString.toString p.price).toList =
      idText (pairText reg p.instrument) p.initial number suffix
        (reg.symbol p.dealtCurrency).toList (ToString.toString p.price).toList := by
    simp [body_eq, idText]
  rw [withPrice, ← whole, List.takeWhile_eq_self_iff]
  intro c member
  rw [decide_eq_true_eq]
  rcases List.mem_append.mp member with inBody | after
  · exact (plain c inBody).2
  · rcases List.mem_cons.mp after with rfl | inPrice
    · decide
    · exact (not_reserved (.inr (.inl (opened.priceChars c inPrice)))).2

theorem symbol_of_currency (bijective : reg.Bijective) {sv : List Char}
    (valid : (reg.currency sv).Valid) : (reg.symbol (reg.currency sv)).toList = sv := by
  have text := (bijective _ _).mp (reg.currency_valid valid)
  rw [Registry.symbol, text, Option.getD_some, String.toList_ofList]

theorem letters_of_parse (bijective : reg.Bijective) {cp : CurrencyPair} (valid : cp.Valid)
    {sv : List Char} (chars : ∀ c ∈ sv, instrumentChar c = true) (read : reg.parse sv = cp) :
    ∀ c ∈ pairText reg cp,
      instrumentChar c = true := by
  obtain rfl | ⟨base, quote, parts, text⟩ | invalid := reg.parse_parts sv
  · rw [← read] at valid
    exact absurd rfl valid.1.1
  · rw [read] at parts
    rw [parts] at valid ⊢
    unfold pairText
    dsimp only
    rw [symbol_of_currency bijective valid.1, symbol_of_currency bijective valid.2]
    obtain rfl | rfl | rfl := text
    · exact chars
    · simp only [List.forall_mem_append, List.forall_mem_cons] at chars ⊢
      exact ⟨chars.1, chars.2.2⟩
    · simp only [List.forall_mem_append, List.forall_mem_cons] at chars ⊢
      exact ⟨chars.1, chars.2.2⟩
  · rw [← read, invalid] at valid
    exact absurd rfl valid.1.2

theorem not_sameTerms_of_none (valid : p.Valid) {text : String}
    (missed : baseRegex.matchWhole
      ((withDefaultPrice text.toList).takeWhile (· ≠ '\x00')) = none) :
    ¬ SameTerms (ofString reg text) p := by
  intro same
  have read := same.instrument
  unfold ofString at read
  dsimp only at read
  rw [missed] at read
  have instrument := valid.1
  rw [← read] at instrument
  exact absurd rfl instrument.1.1

theorem ofString_of_some {text : String} {baseMatch : Regex.Captures Char}
    (found : baseRegex.matchWhole
      ((withDefaultPrice text.toList).takeWhile (· ≠ '\x00')) = some baseMatch) :
    ofString reg text = ofMatch reg baseMatch := by
  unfold ofString
  dsimp only
  rw [found]

theorem letters_of_sameTerms (bijective : reg.Bijective) (opened : Opened reg p) {text : String}
    (same : SameTerms (ofString reg text) p) :
    ∀ c ∈ pairText reg p.instrument, instrumentChar c = true := by
  cases found : baseRegex.matchWhole ((withDefaultPrice text.toList).takeWhile (· ≠ '\x00')) with
  | none => exact absurd same (not_sameTerms_of_none opened.valid found)
  | some baseMatch =>
      obtain ⟨l, -, rfl⟩ := exists_layout (Regex.matches_of_matchWhole found)
      have read := same.instrument
      rw [ofString_of_some found] at read
      exact letters_of_parse bijective opened.valid.1 l.instrumentChars read

theorem Opened.currency_dealt (opened : Opened reg p) (bijective : reg.Bijective) :
    reg.currency (reg.symbol p.dealtCurrency).toList = p.dealtCurrency := by
  have registered : (reg.valToStr p.dealtCurrency).isSome := by
    obtain base | quote := opened.dealt
    · rw [base]
      exact opened.base
    · rw [quote]
      exact opened.quote
  obtain ⟨symbol, text⟩ := Option.isSome_iff_exists.mp registered
  have found := (bijective symbol p.dealtCurrency).mpr text
  simp [Registry.currency, Registry.symbol, text, found]

def idCaptures (reg : Registry) (p : Position) : Regex.Captures Char :=
  [some (pairText reg p.instrument), some [p.initial],
    some (qtyToString p.instrument p.quantity).toList,
    if (reg.symbol p.dealtCurrency).toList = [] then none
    else some (reg.symbol p.dealtCurrency).toList,
    some (ToString.toString p.price).toList]

theorem str_dealt : Regex.str (idCaptures reg p) 4 = (reg.symbol p.dealtCurrency).toList := by
  change (if (reg.symbol p.dealtCurrency).toList = [] then none
    else some (reg.symbol p.dealtCurrency).toList).getD [] = _
  split
  next empty => exact empty.symm
  next => rfl

theorem Opened.side_ofMatch (opened : Opened reg p) :
    (ofMatch reg (idCaptures reg p)).side = p.side := by
  change (if [p.initial].head?.map Char.toUpper = some 'S' then Side.sell else .buy) = p.side
  unfold initial
  obtain buy | sell := opened.valid.2.2
  · rw [buy]
    rfl
  · rw [sell]
    rfl

theorem Opened.price_ofMatch (opened : Opened reg p) :
    (ofMatch reg (idCaptures reg p)).price = p.price := by
  have pointless : '.' ∉ (ToString.toString p.price).toList := by
    rw [toString_parts opened.price.1]
    intro member
    have digit : '.' ∈ Nat.toDigits 10 p.price.natAbs := by
      simpa [Numeral.digits, Numeral.ofInt] using member
    exact absurd (Numeral.isDigit_toDigits '.' digit) (by decide)
  exact (if_neg pointless).trans
    (parseLong_toString ⟨by linarith [opened.price.1], opened.price.2⟩ 0)

theorem Opened.sameTerms_ofMatch (opened : Opened reg p) (bijective : reg.Bijective) :
    SameTerms (ofMatch reg (idCaptures reg p)) p ↔
      reg.parse (pairText reg p.instrument) = p.instrument ∧
        ((reg.symbol p.dealtCurrency).toList = [] → p.dealtCurrency = p.instrument.baseCCY) ∧
        stringToQty p.instrument (qtyToString p.instrument p.quantity) = p.quantities qsOpen := by
  have dealt : (ofMatch reg (idCaptures reg p)).dealtCurrency =
      if (reg.symbol p.dealtCurrency).toList.isEmpty then
        (reg.parse (pairText reg p.instrument)).baseCCY
      else p.dealtCurrency := by
    unfold ofMatch
    dsimp only
    rw [str_dealt, opened.currency_dealt bijective]
    rfl
  have quantity : (ofMatch reg (idCaptures reg p)).quantities qsOpen =
      stringToQty (reg.parse (pairText reg p.instrument))
        (qtyToString p.instrument p.quantity) :=
    congrArg (stringToQty _) (String.ofList_toList)
  constructor
  · intro same
    have instrument : reg.parse (pairText reg p.instrument) = p.instrument := same.instrument
    refine ⟨instrument, fun empty => ?_, ?_⟩
    · rw [← same.dealtCurrency, dealt, empty, instrument]
      rfl
    · rw [← same.quantity, quantity, instrument]
  · rintro ⟨instrument, base, read⟩
    refine ⟨instrument, ?_, opened.side_ofMatch, opened.price_ofMatch, ?_⟩
    · rw [dealt, instrument]
      split
      next empty => exact (base (List.isEmpty_iff.mp empty)).symm
      next => rfl
    · rw [quantity, instrument, read]

theorem stringToQty_eq_iff (cp : CurrencyPair) (qty : ℤ) :
    ¬ Billions cp qty ∧ stringToQty cp (qtyToString cp qty) = qty ↔
      if cp.IsFX then ¬ 100000000000 ∣ qty else 10000 ∣ qty := by
  rw [stringToQty_qtyToString_iff]
  unfold Billions
  split
  next fx => simp [fx]
  next crypto => simp [crypto]

theorem Opened.exists_parts (opened : Opened reg p) :
    ∃ (x : Numeral) (suffix : List Char),
      (qtyToString p.instrument p.quantity).toList = x.digits ++ suffix ∧
        (∀ c ∈ suffix, c.isLower = true) ∧
        ((suffix = [] ∨ suffix = ['m'] ∨ suffix = ['k']) ↔
          ¬ Billions p.instrument (p.quantities qsOpen)) := by
  have positive : 0 < p.quantity := by
    rw [opened.quantity_eq]
    exact opened.quantity.1
  obtain ⟨x, suffix, printed, form⟩ := qtyToString_parts p.instrument positive
  refine ⟨x, suffix, printed, List.all_eq_true.mp ?_, ?_⟩
  · obtain ⟨-, rfl⟩ | ⟨-, rfl | rfl | rfl⟩ := form <;> decide
  · rw [← opened.quantity_eq]
    obtain ⟨large, rfl⟩ | ⟨small, forms⟩ := form
    · exact iff_of_false (by decide) (not_not.mpr large)
    · exact iff_of_true forms small

/-- The terms of a position come back from its id if and only if the id is readable. -/
theorem id_round_trips_iff (reg : Registry) (p : Position) (bijective : reg.Bijective)
    (opened : Opened reg p) : SameTerms (ofString reg (p.id reg)) p ↔ Readable reg p := by
  by_cases letters : ∀ c ∈ pairText reg p.instrument, instrumentChar c = true
  swap
  · exact iff_of_false (fun same => letters (letters_of_sameTerms bijective opened same))
      fun readable => letters readable.letters
  obtain ⟨x, suffix, printed, suffixChars, small_iff⟩ := opened.exists_parts
  have repr := opened.repr_id letters printed (numberChars_digits x) suffixChars
  have quantity := stringToQty_eq_iff p.instrument (p.quantities qsOpen)
  by_cases accepted : Accepted (pairText reg p.instrument) suffix
      (reg.symbol p.dealtCurrency).toList
  · have found : baseRegex.matchWhole
        ((withDefaultPrice (p.id reg).toList).takeWhile (· ≠ '\x00')) =
          some (idCaptures reg p) := by
      rw [repr, idCaptures, printed]
      exact matchWhole_idText letters (digits_ne_nil x) (numberChars_digits x) suffixChars
        (opened.dealtChars letters) opened.priceChars opened.priceNonempty (sideInitial_initial p)
        accepted
    rw [ofString_of_some found, opened.sameTerms_ofMatch bijective, opened.quantity_eq]
    constructor
    · rintro ⟨instrument, dealt, read⟩
      exact ⟨letters, instrument, accepted.2.2.imp_left fun empty => ⟨empty, dealt empty⟩,
        quantity.mp ⟨small_iff.mp accepted.2.1, read⟩⟩
    · intro readable
      refine ⟨readable.instrument, fun empty => ?_, (quantity.mpr readable.quantity).2⟩
      obtain ⟨-, base⟩ | ⟨three, -⟩ := readable.dealt
      · exact base
      · rw [empty] at three
        cases three
  · have missed : baseRegex.matchWhole
        ((withDefaultPrice (p.id reg).toList).takeWhile (· ≠ '\x00')) = none := by
      rw [repr]
      exact matchWhole_idText_none letters (digits_ne_nil x) (numberChars_digits x) suffixChars
        (opened.dealtChars letters) opened.priceChars accepted
    refine iff_of_false (not_sameTerms_of_none opened.valid missed) fun readable => accepted ?_
    refine ⟨fun empty => ?_, small_iff.mpr (quantity.mpr readable.quantity).1,
      readable.dealt.imp_left And.left⟩
    have valid := opened.valid.1
    rw [← readable.instrument, empty] at valid
    exact valid.1.1 rfl

def million : Position := create ⟨.eur, .usd⟩ .usd .sell 11234 100000000

theorem million_round_trips :
    SameTerms (ofString Registry.majors (million.id Registry.majors)) million := by
  have opened : Opened Registry.majors million :=
    ⟨by decide, by decide, by decide, by decide, rfl, rfl, by decide, by decide⟩
  exact (id_round_trips_iff Registry.majors million Registry.majors_bijective opened).mpr
    ⟨List.all_eq_true.mp (by decide +kernel), by decide +kernel,
      .inr ⟨by decide +kernel, List.all_eq_true.mp (by decide +kernel)⟩, by decide +kernel⟩

theorem billion_not_read :
    ¬ ∀ (reg : Registry) (p : Position), reg.Bijective → Opened reg p →
      SameTerms (ofString reg (p.id reg)) p := by
  intro all
  have opened : Opened Registry.majors (create ⟨.eur, .usd⟩ .eur .buy 11234 100000000000) :=
    ⟨by decide, by decide, by decide, by decide, rfl, rfl, by decide, by decide⟩
  have read := (all Registry.majors _ Registry.majors_bijective opened).instrument
  revert read
  decide +kernel

/-- An id that the comment of the constructor gives. -/
example : ¬ (ofString Registry.majors "EURUSD_B1M@1.2").Valid := by decide +kernel

end Position
end SpotGridBot.Utils
