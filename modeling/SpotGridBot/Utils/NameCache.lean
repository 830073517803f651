import SpotGridBot.Utils.Symbols
import SpotGridBot.Utils.PairOrder

/-!
# The cache of pair names

`CurrencyPair::ToString` keeps every name it builds in `m_nameCache`, a `std::map` that compares
pairs with `operator<`. To that operator a pair that is not valid is the same key as any pair of its
base currency. The cache also outlives the currencies that `RegisterCurrency` takes back: the
message of the refusal may have put a pair of the refused currency there.
-/

namespace SpotGridBot.Utils
open Runs

namespace Registry
variable (reg : Registry)

/-- `m_valToStr[c]` leaves an empty text behind for a value that is not there. -/
def subscript (c : Currency) : Registry :=
  { reg with valToStr := Function.update reg.valToStr c (some (reg.symbol c)) }

@[simp] theorem symbol_subscript (c c' : Currency) :
    (reg.subscript c).symbol c' = reg.symbol c' := by
  by_cases here : c' = c
  · rw [here]
    simp [subscript, symbol]
  · simp [subscript, symbol, here]

theorem isSome_subscript {c c' : Currency} (known : (reg.valToStr c').isSome) :
    ((reg.subscript c).valToStr c').isSome := by
  by_cases here : c' = c
  · rw [here]
    simp [subscript]
  · simpa [subscript, here] using known

/-- What the body of the two loops of `CheckRegisteredCurrencies` returns on: the two symbols, and
the pair that their concatenation is read as. -/
def conflictOf (iter1 iter2 : String × Currency) : Option (String × CurrencyPair) :=
  if iter1.2.Valid ∧ iter2.2.Valid ∧ iter1.2 ≠ iter2.2 then
    let cp := reg.parse (iter1.1.toList ++ iter2.1.toList)
    if cp.Invalid ∨ cp.baseCCY ≠ reg.currency iter1.1.toList ∨
        cp.quoteCCY ≠ reg.currency iter2.1.toList then
      some (iter1.1 ++ "/" ++ iter2.1, cp)
    else none
  else none

def firstConflict : Option (String × CurrencyPair) :=
  reg.strToVal.findSome? fun iter1 => reg.strToVal.findSome? fun iter2 => reg.conflictOf iter1 iter2

theorem checkRegisteredCurrencies_eq :
    reg.checkRegisteredCurrencies = reg.firstConflict.isNone := by
  rw [Bool.eq_iff_iff, Option.isNone_iff_eq_none]
  simp only [checkRegisteredCurrencies, firstConflict, List.all_eq_true, List.findSome?_eq_none_iff]
  refine forall₂_congr fun iter1 _ => forall₂_congr fun iter2 _ => ?_
  unfold conflictOf
  by_cases compared : iter1.2.Valid ∧ iter2.2.Valid ∧ iter1.2 ≠ iter2.2
  · rw [if_pos compared, if_pos compared]
    simp only [Bool.and_eq_true, decide_eq_true_eq, beq_iff_eq]
    split
    next conflict =>
      unfold CurrencyPair.Invalid at conflict
      simp only [reduceCtorEq, iff_false]
      tauto
    next clean =>
      unfold CurrencyPair.Invalid at clean
      simp only [iff_true]
      tauto
  · rw [if_neg compared, if_neg compared]
    simp

def withdraw (value : Currency) (symbol : String) : Registry :=
  { reg with
    valToStr := Function.update reg.valToStr value none
    strToVal := erase symbol reg.strToVal }

theorem symbol_withdraw {value c : Currency} (other : c ≠ value) (symbol : String) :
    (reg.withdraw value symbol).symbol c = reg.symbol c := by
  simp [withdraw, Registry.symbol, other]

theorem symbol_extend {value c : Currency} (other : c ≠ value) (symbol : String) :
    (reg.extend value symbol).symbol c = reg.symbol c := by
  simp [extend, Registry.symbol, other]

end Registry

/-- The static maps of the currencies, and `m_nameCache` in the order of its keys. -/
structure Names where
  reg : Registry
  cache : List (CurrencyPair × String)

namespace Names
variable (s : Names)

def find (cp : CurrencyPair) : Option (CurrencyPair × String) :=
  (s.cache.find? fun entry => !entry.1.lt cp).filter fun entry => !cp.lt entry.1

def emplace (cp : CurrencyPair) (name : String) : Names :=
  { s with cache := Ordered.insertBefore (fun entry => !entry.1.lt cp) (cp, name) s.cache }

def toString (cp : CurrencyPair) : String × Names :=
  if cp.Empty then ("", s)
  else
    match s.find cp with
    | some entry => (entry.2, s)
    | none =>
        let base := s.reg.subscript cp.baseCCY
        let name := s.reg.symbol cp.baseCCY ++ "/" ++ base.symbol cp.quoteCCY
        (name, { s with reg := base.subscript cp.quoteCCY }.emplace cp name)

def checkRegisteredCurrencies : Option String × Names :=
  match s.reg.firstConflict with
  | none => (none, s)
  | some (pair, cp) =>
      if cp.Invalid then (some ("Invalid currency pair '" ++ pair ++ "'"), s)
      else
        let other := s.toString cp
        (some ("Currency pair '" ++ pair ++ "' conflicts with another pair '" ++ other.1 ++ "'"),
          other.2)

def registerCurrency (value : Currency) (symbol : String) : Option String × Names :=
  if (s.reg.valToStr value).isSome then
    (some ("Currency with id " ++ ToString.toString value.value ++ " already exists"), s)
  else if (s.reg.strToVal.lookup symbol).isSome then
    (some ("Currency with symbol '" ++ symbol ++ "' already exists"), s)
  else
    match { s with reg := s.reg.extend value symbol }.checkRegisteredCurrencies with
    | (none, s') => (none, s')
    | (some message, s') =>
        -- The registry forgets the conflicting entry, the cache does not.
        (some message, { s' with reg := s'.reg.withdraw value symbol })

variable {s}

theorem emplace_eq {cp : CurrencyPair} (missing : s.find cp = none) (name : String) :
    (s.emplace cp name).cache = OrderedMap.emplace CurrencyPair.lt s.cache (cp, name) := by
  change OrderedMap.find CurrencyPair.lt cp s.cache = none at missing
  unfold OrderedMap.emplace
  rw [missing]
  rfl

theorem mem_of_find {cp : CurrencyPair} {entry : CurrencyPair × String}
    (found : s.find cp = some entry) : entry ∈ s.cache :=
  (OrderedMap.find_some found).1

theorem base_eq_of_find {cp : CurrencyPair} {entry : CurrencyPair × String}
    (found : s.find cp = some entry) : entry.1.baseCCY = cp.baseCCY := by
  obtain ⟨-, beside⟩ := OrderedMap.find_some found
  by_contra differ
  have other : entry.1 ≠ cp := fun same => differ (congrArg CurrencyPair.baseCCY same)
  exact beside ((CurrencyPair.comparable_iff_apart other).mpr fun same => absurd same differ)

structure Current (s : Names) : Prop where
  ordered : s.cache.Pairwise fun entry later => entry.1.lt later.1 = true
  known : ∀ entry ∈ s.cache,
    (s.reg.valToStr entry.1.baseCCY).isSome ∧ (s.reg.valToStr entry.1.quoteCCY).isSome
  named : ∀ entry ∈ s.cache,
    entry.2 = s.reg.symbol entry.1.baseCCY ++ "/" ++ s.reg.symbol entry.1.quoteCCY

theorem toString_cases (cp : CurrencyPair) :
    cp.Empty ∧ s.toString cp = ("", s) ∨
      (∃ entry, ¬ cp.Empty ∧ s.find cp = some entry ∧ s.toString cp = (entry.2, s)) ∨
      (¬ cp.Empty ∧ s.find cp = none ∧
        s.toString cp = (s.reg.symbol cp.baseCCY ++ "/" ++ s.reg.symbol cp.quoteCCY,
          { s with reg := (s.reg.subscript cp.baseCCY).subscript cp.quoteCCY }.emplace cp
            (s.reg.symbol cp.baseCCY ++ "/" ++ s.reg.symbol cp.quoteCCY))) := by
  unfold toString
  by_cases empty : cp.Empty
  · rw [if_pos empty]
    exact .inl ⟨empty, rfl⟩
  · rw [if_neg empty]
    cases found : s.find cp with
    | some entry => exact .inr (.inl ⟨entry, empty, rfl, rfl⟩)
    | none =>
        refine .inr (.inr ⟨empty, rfl, ?_⟩)
        simp only [Registry.symbol_subscript]

theorem Current.emplace (current : s.Current) {cp : CurrencyPair} (missing : s.find cp = none)
    {name : String}
    (known : (s.reg.valToStr cp.baseCCY).isSome ∧ (s.reg.valToStr cp.quoteCCY).isSome)
    (named : name = s.reg.symbol cp.baseCCY ++ "/" ++ s.reg.symbol cp.quoteCCY) :
    (s.emplace cp name).Current where
  ordered := by
    rw [emplace_eq missing]
    exact OrderedMap.Sorted.emplace CurrencyPair.lt_trans current.ordered (cp, name)
  known entry member := by
    rcases Ordered.mem_insertBefore.mp member with rfl | old
    · exact known
    · exact current.known entry old
  named entry member := by
    rcases Ordered.mem_insertBefore.mp member with rfl | old
    · exact named
    · exact current.named entry old

theorem Current.subscript (current : s.Current) (c : Currency) :
    Names.Current { s with reg := s.reg.subscript c } where
  ordered := current.ordered
  known entry member :=
    (current.known entry member).imp s.reg.isSome_subscript s.reg.isSome_subscript
  named entry member := by simpa using current.named entry member

theorem Current.toString (current : s.Current) (cp : CurrencyPair) :
    (s.toString cp).2.Current := by
  obtain ⟨-, same⟩ | ⟨entry, -, -, same⟩ | ⟨-, missing, same⟩ := s.toString_cases cp
  · rw [same]
    exact current
  · rw [same]
    exact current
  · rw [same]
    refine ((current.subscript cp.baseCCY).subscript cp.quoteCCY).emplace missing ⟨?_, ?_⟩ (by simp)
    · exact Registry.isSome_subscript _ (by simp [Registry.subscript])
    · simp [Registry.subscript]

theorem Current.other_of_new (current : s.Current) {value : Currency}
    (newValue : s.reg.valToStr value = none) {entry : CurrencyPair × String}
    (member : entry ∈ s.cache) : entry.1.baseCCY ≠ value ∧ entry.1.quoteCCY ≠ value := by
  obtain ⟨base, quote⟩ := current.known entry member
  constructor
  · rintro rfl
    simp [newValue] at base
  · rintro rfl
    simp [newValue] at quote

theorem Current.extend (current : s.Current) {value : Currency} {symbol : String}
    (newValue : s.reg.valToStr value = none) :
    Names.Current { s with reg := s.reg.extend value symbol } where
  ordered := current.ordered
  known entry member := by
    obtain ⟨base, quote⟩ := current.other_of_new newValue member
    simpa [Registry.extend, base, quote] using current.known entry member
  named entry member := by
    obtain ⟨base, quote⟩ := current.other_of_new newValue member
    rw [s.reg.symbol_extend base, s.reg.symbol_extend quote]
    exact current.named entry member

theorem Current.withdraw (current : s.Current) {value : Currency} {symbol : String}
    (absent : ∀ entry ∈ s.cache, entry.1.baseCCY ≠ value ∧ entry.1.quoteCCY ≠ value) :
    Names.Current { s with reg := s.reg.withdraw value symbol } where
  ordered := current.ordered
  known entry member := by
    obtain ⟨base, quote⟩ := absent entry member
    simpa [Registry.withdraw, base, quote] using current.known entry member
  named entry member := by
    obtain ⟨base, quote⟩ := absent entry member
    rw [s.reg.symbol_withdraw base, s.reg.symbol_withdraw quote]
    exact current.named entry member

/-- What the message of a conflict leaves behind: it names the pair unless that is invalid. -/
def reported (s : Names) (cp : CurrencyPair) : Names :=
  if cp.Invalid then s else (s.toString cp).2

theorem checkRegisteredCurrencies_cases (s : Names) :
    s.reg.firstConflict = none ∧ s.checkRegisteredCurrencies = (none, s) ∨
      ∃ pair cp message, s.reg.firstConflict = some (pair, cp) ∧
        s.checkRegisteredCurrencies = (some message, s.reported cp) := by
  unfold checkRegisteredCurrencies reported
  cases s.reg.firstConflict with
  | none => exact .inl ⟨rfl, rfl⟩
  | some conflict =>
      obtain ⟨pair, cp⟩ := conflict
      dsimp only
      split
      next invalid =>
        exact .inr ⟨pair, cp, _, rfl, congrArg (Prod.mk (some _)) (if_pos invalid).symm⟩
      next readable =>
        exact .inr ⟨pair, cp, _, rfl, congrArg (Prod.mk (some _)) (if_neg readable).symm⟩

theorem registerCurrency_cases (s : Names) (value : Currency) (symbol : String) :
    (∃ message, ((s.reg.valToStr value).isSome ∨ (s.reg.strToVal.lookup symbol).isSome) ∧
        s.registerCurrency value symbol = (some message, s)) ∨
      s.reg.valToStr value = none ∧ s.reg.strToVal.lookup symbol = none ∧
        ((s.reg.extend value symbol).firstConflict = none ∧
            s.registerCurrency value symbol = (none, { s with reg := s.reg.extend value symbol }) ∨
          ∃ pair cp message s', (s.reg.extend value symbol).firstConflict = some (pair, cp) ∧
            s' = reported { s with reg := s.reg.extend value symbol } cp ∧
            s.registerCurrency value symbol =
              (some message, { s' with reg := s'.reg.withdraw value symbol })) := by
  unfold registerCurrency
  split
  next known => exact .inl ⟨_, .inl known, rfl⟩
  next newValue =>
    split
    next known => exact .inl ⟨_, .inr known, rfl⟩
    next newSymbol =>
      refine .inr ⟨Option.not_isSome_iff_eq_none.mp newValue,
        Option.not_isSome_iff_eq_none.mp newSymbol, ?_⟩
      obtain ⟨clean, checked⟩ | ⟨pair, cp, message, conflict, checked⟩ :=
        checkRegisteredCurrencies_cases { s with reg := s.reg.extend value symbol }
      · rw [checked]
        exact .inl ⟨clean, rfl⟩
      · rw [checked]
        exact .inr ⟨pair, cp, message, _, conflict, rfl, rfl⟩

theorem symbol_toString (s : Names) (cp : CurrencyPair) (c : Currency) :
    (s.toString cp).2.reg.symbol c = s.reg.symbol c := by
  obtain ⟨-, same⟩ | ⟨entry, -, -, same⟩ | ⟨-, -, same⟩ := s.toString_cases cp
  · rw [same]
  · rw [same]
  · rw [same]
    simp [Names.emplace]

theorem strToVal_toString (s : Names) (cp : CurrencyPair) :
    (s.toString cp).2.reg.strToVal = s.reg.strToVal := by
  obtain ⟨-, same⟩ | ⟨entry, -, -, same⟩ | ⟨-, -, same⟩ := s.toString_cases cp
  · rw [same]
  · rw [same]
  · rw [same]
    rfl

theorem symbol_reported (s : Names) (cp : CurrencyPair) (c : Currency) :
    (s.reported cp).reg.symbol c = s.reg.symbol c := by
  unfold reported
  split
  · rfl
  · exact s.symbol_toString cp c

theorem strToVal_reported (s : Names) (cp : CurrencyPair) :
    (s.reported cp).reg.strToVal = s.reg.strToVal := by
  unfold reported
  split
  · rfl
  · exact s.strToVal_toString cp

theorem Current.reported (current : s.Current) (cp : CurrencyPair) : (s.reported cp).Current := by
  unfold Names.reported
  split
  · exact current
  · exact current.toString cp

theorem mem_reported {s : Names} {cp : CurrencyPair} {entry : CurrencyPair × String}
    (member : entry ∈ (s.reported cp).cache) :
    entry ∈ s.cache ∨ entry.1 = cp ∧ cp.Valid ∧ s.find cp = none := by
  unfold reported at member
  split at member
  next => exact .inl member
  next readable =>
    obtain ⟨-, same⟩ | ⟨found, -, -, same⟩ | ⟨filled, missing, same⟩ := s.toString_cases cp
    · rw [same] at member
      exact .inl member
    · rw [same] at member
      exact .inl member
    · rw [same] at member
      rcases Ordered.mem_insertBefore.mp member with rfl | old
      · have valid : cp.Valid := by
          by_contra invalid
          exact readable ⟨filled, invalid⟩
        exact .inr ⟨rfl, valid, missing⟩
      · exact .inl old

/-- With the cache or without it, a call succeeds on the same registrations, and the registry has
the same symbols after it. -/
theorem registerCurrency_refines (s : Names) (value : Currency) (symbol : String) :
    (s.registerCurrency value symbol).1.isNone = (s.reg.registerCurrency value symbol).2 ∧
      (s.registerCurrency value symbol).2.reg.strToVal =
        (s.reg.registerCurrency value symbol).1.strToVal ∧
      ∀ c, (s.registerCurrency value symbol).2.reg.symbol c =
        (s.reg.registerCurrency value symbol).1.symbol c := by
  have check := (s.reg.extend value symbol).checkRegisteredCurrencies_eq
  obtain ⟨message, known, same⟩ | ⟨newValue, absent, ⟨clean, same⟩ |
    ⟨pair, cp, message, s', conflict, left, same⟩⟩ := s.registerCurrency_cases value symbol
  · have unchanged : s.reg.registerCurrency value symbol = (s.reg, false) := by
      unfold Registry.registerCurrency
      rcases known with known | known
      · rw [if_pos known]
      · rw [if_pos known, ite_self]
    rw [same, unchanged]
    exact ⟨rfl, rfl, fun _ => rfl⟩
  · have extended : s.reg.registerCurrency value symbol = (s.reg.extend value symbol, true) := by
      simp [Registry.registerCurrency, newValue, absent, check, clean]
    rw [same, extended]
    exact ⟨rfl, rfl, fun _ => rfl⟩
  · have unchanged : s.reg.registerCurrency value symbol = (s.reg, false) := by
      obtain unchanged | ⟨-, -, checked, -⟩ := s.reg.registerCurrency_cases value symbol
      · exact unchanged
      · rw [check, conflict] at checked
        cases checked
    rw [same, unchanged, left]
    refine ⟨rfl, ?_, fun c => ?_⟩
    · change Registry.erase symbol _ = _
      rw [strToVal_reported]
      exact Registry.erase_emplace absent value
    · by_cases here : c = value
      · rw [here]
        simp [Registry.withdraw, Registry.symbol, newValue]
      · rw [Registry.symbol_withdraw _ here, symbol_reported, Registry.symbol_extend _ here]

inductive Call where
  | toString (cp : CurrencyPair)
  | registerCurrency (value : Currency) (symbol : String)
deriving DecidableEq, Repr

def step (s : Names) : Call → Names
  | .toString cp => (s.toString cp).2
  | .registerCurrency value symbol => (s.registerCurrency value symbol).2

def Transparent (s : Names) : Call → Prop
  | .toString cp => ¬ cp.Empty →
      (s.toString cp).1 = s.reg.symbol cp.baseCCY ++ "/" ++ s.reg.symbol cp.quoteCCY
  | .registerCurrency _ _ => True

def SameQuote (s : Names) : Call → Prop
  | .toString cp => ¬ cp.Empty →
      ∀ entry ∈ s.find cp, s.reg.symbol entry.1.quoteCCY = s.reg.symbol cp.quoteCCY
  | .registerCurrency _ _ => True

def NamesOnly (pairs : Set CurrencyPair) (s : Names) : Call → Prop
  | .toString cp => ¬ cp.Empty → cp ∈ pairs
  | .registerCurrency value symbol =>
      s.reg.valToStr value = none → s.reg.strToVal.lookup symbol = none →
        ∀ conflict ∈ (s.reg.extend value symbol).firstConflict, conflict.2.Valid →
          conflict.2 ∈ pairs ∧ conflict.2.baseCCY ≠ value ∧ conflict.2.quoteCCY ≠ value

instance (pairs : Set CurrencyPair) [DecidablePred (· ∈ pairs)] (s : Names) :
    (call : Call) → Decidable (s.NamesOnly pairs call)
  | .toString cp => inferInstanceAs (Decidable (¬ cp.Empty → cp ∈ pairs))
  | .registerCurrency value symbol =>
      inferInstanceAs (Decidable (s.reg.valToStr value = none →
        s.reg.strToVal.lookup symbol = none →
          ∀ conflict ∈ (s.reg.extend value symbol).firstConflict, conflict.2.Valid →
            conflict.2 ∈ pairs ∧ conflict.2.baseCCY ≠ value ∧ conflict.2.quoteCCY ≠ value))

structure Holds (pairs : Set CurrencyPair) (s : Names) : Prop extends s.Current where
  keys : ∀ entry ∈ s.cache, entry.1 ∈ pairs

theorem holds_empty (reg : Registry) (pairs : Set CurrencyPair) : Holds pairs ⟨reg, []⟩ :=
  ⟨⟨List.Pairwise.nil, by simp, by simp⟩, by simp⟩

theorem mem_toString {s : Names} {cp : CurrencyPair} {entry : CurrencyPair × String}
    (member : entry ∈ (s.toString cp).2.cache) : entry ∈ s.cache ∨ entry.1 = cp ∧ ¬ cp.Empty := by
  obtain ⟨-, same⟩ | ⟨found, -, -, same⟩ | ⟨filled, -, same⟩ := s.toString_cases cp
  · rw [same] at member
    exact .inl member
  · rw [same] at member
    exact .inl member
  · rw [same] at member
    rcases Ordered.mem_insertBefore.mp member with rfl | old
    · exact .inr ⟨rfl, filled⟩
    · exact .inl old

theorem Holds.step {pairs : Set CurrencyPair} (holds : s.Holds pairs) {call : Call}
    (only : s.NamesOnly pairs call) : (s.step call).Holds pairs := by
  have current := holds.toCurrent
  cases call with
  | toString cp =>
      refine ⟨current.toString cp, fun entry member => ?_⟩
      rcases mem_toString member with old | ⟨here, filled⟩
      · exact holds.keys entry old
      · exact here ▸ only filled
  | registerCurrency value symbol =>
      unfold Names.step
      dsimp only
      obtain ⟨message, -, same⟩ | ⟨newValue, absent, ⟨-, same⟩ | ⟨pair, cp, message, s', conflict,
        left, same⟩⟩ := s.registerCurrency_cases value symbol
      · rw [same]
        exact holds
      · rw [same]
        exact ⟨current.extend newValue, holds.keys⟩
      · rw [same, left]
        have named : cp.Valid → cp ∈ pairs ∧ cp.baseCCY ≠ value ∧ cp.quoteCCY ≠ value :=
          only newValue absent (pair, cp) conflict
        constructor
        · refine ((current.extend newValue).reported cp).withdraw fun entry member => ?_
          rcases mem_reported member with old | ⟨here, valid, -⟩
          · exact current.other_of_new newValue old
          · exact here ▸ (named valid).2
        · intro entry member
          rcases mem_reported member with old | ⟨here, valid, -⟩
          · exact holds.keys entry old
          · exact here ▸ (named valid).1

theorem Current.answers_iff (current : s.Current) (call : Call) :
    s.Transparent call ↔ s.SameQuote call := by
  cases call with
  | registerCurrency value symbol => exact Iff.rfl
  | toString cp =>
      refine forall_congr' fun filled => ?_
      obtain ⟨empty, -⟩ | ⟨entry, -, found, same⟩ | ⟨-, missing, same⟩ := s.toString_cases cp
      · exact absurd empty filled
      · rw [same, current.named entry (mem_of_find found), base_eq_of_find found]
        simp [found]
      · rw [same]
        simp [missing]

theorem sameQuote_of_apart {cp : CurrencyPair}
    (apart : ∀ entry ∈ s.cache, entry.1 ≠ cp → entry.1.Apart cp) : s.SameQuote (.toString cp) := by
  intro _ entry found
  obtain ⟨member, beside⟩ := OrderedMap.find_some found
  have same : entry.1 = cp := by
    by_contra differ
    exact beside ((CurrencyPair.comparable_iff_apart differ).mpr (apart entry member differ))
  rw [same]

theorem Holds.toString_eq {pairs : Set CurrencyPair} (holds : s.Holds pairs)
    (apart : pairs.Pairwise CurrencyPair.Apart) {cp : CurrencyPair} (known : cp ∈ pairs) :
    (s.toString cp).1 = s.reg.toString cp := by
  by_cases empty : cp.Empty
  · rw [toString, if_pos empty, Registry.toString, if_pos empty]
  · rw [Registry.toString, if_neg empty]
    refine (holds.toCurrent.answers_iff (.toString cp)).mpr ?_ empty
    exact sameQuote_of_apart fun entry member differ =>
      apart (holds.keys entry member) known differ

/-- The cache is transparent while `operator<` tells the pairs it is asked for apart, and no refusal
names a pair of the refused currency. -/
theorem transparent_of_apart (reg : Registry) {pairs : Set CurrencyPair}
    (apart : pairs.Pairwise CurrencyPair.Apart) {calls : List Call}
    (only : Along step (NamesOnly pairs) ⟨reg, []⟩ calls) :
    Along step Transparent ⟨reg, []⟩ calls := by
  refine along_of_invariant (fun _ _ only holds => holds.step only) ?_ (holds_empty reg pairs) only
  intro s call only holds
  rw [holds.toCurrent.answers_iff]
  cases call with
  | registerCurrency value symbol => trivial
  | toString cp =>
      intro filled
      exact sameQuote_of_apart (fun entry member differ =>
        apart (holds.keys entry member) (only filled) differ) filled

theorem transparent_after_refusal :
    Along step Transparent ⟨Registry.majors, []⟩
      [.registerCurrency ⟨71⟩ "EU", .registerCurrency ⟨72⟩ "RUSD", .toString ⟨.eur, .usd⟩,
        .toString ⟨⟨71⟩, .usd⟩] :=
  transparent_of_apart Registry.majors CurrencyPair.valid_apart (by decide +kernel)

theorem half_empty_pair_misnamed :
    ¬ ∀ reg calls, Along step Transparent ⟨reg, []⟩ calls := by
  intro always
  obtain ⟨-, wrong, -⟩ :=
    always Registry.majors [.toString ⟨.eur, .usd⟩, .toString ⟨.eur, .none⟩]
  have misnamed := wrong (by decide +kernel)
  revert misnamed
  decide +kernel

/-- `ABCDEF` could not be told from `AB/CDEF`; saying so has put the refused currency there. -/
example :
    let s := run step ⟨Registry.majors, []⟩ [.registerCurrency ⟨71⟩ "AB",
      .registerCurrency ⟨72⟩ "DEF", .registerCurrency ⟨73⟩ "CDEF", .registerCurrency ⟨74⟩ "ABC"]
    (s.toString ⟨⟨74⟩, ⟨72⟩⟩).1 = "ABC/DEF" ∧ s.reg.symbol ⟨74⟩ = "" := by
  decide +kernel

end Names
end SpotGridBot.Utils
