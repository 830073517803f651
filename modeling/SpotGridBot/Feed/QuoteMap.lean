import SpotGridBot.Feed.ActiveQuoteTable
import SpotGridBot.Lib.Runs

namespace SpotGridBot.Feed
open Utils Runs

structure StoredQuote extends QuoteInfo where
  hashValue : ℕ
  oriKey : ℤ
  sequenceTag : ℕ
deriving DecidableEq, Repr

/-- A pointer is null or points to an `Info`. -/
abbrev QuoteMap (Info : Type*) := String → Option (Option Info)

namespace QuoteMap

section
variable {Info : Type*} (map : QuoteMap Info)

def iterator (refId : String) : Option String :=
  if refId ≠ "" ∧ (map refId).isSome then some refId else none

def findQuoteInfo (refId : String) : Option Info :=
  (map.iterator refId).bind fun id => (map id).join

/-- An id that is in the map keeps its pointer. -/
def emplace (id : String) (ptr : Option Info) : QuoteMap Info :=
  match map id with
  | some _ => map
  | none => Function.update map id (some ptr)

def replaceQuoteInfoAt (it : Option String) (newId : String) (newQuote : Option Info) :
    QuoteMap Info × Option Info :=
  match it with
  | some id =>
      let lastQuote := (map id).join
      let map := Function.update map id (some newQuote)
      if newId ≠ id then
        let node := (map id).join
        (emplace (Function.update map id none) newId node, lastQuote)
      else (map, lastQuote)
  | none => (map.emplace newId newQuote, none)

def removeQuoteInfo (refId : String) : QuoteMap Info × Option Info :=
  match map.iterator refId with
  | some id => (Function.update map id none, (map id).join)
  | none => (map, none)

def NonNull : Prop := ∀ id, map id ≠ some none

structure ReplaceLaw (before : QuoteMap Info) (refId newId : String) (newQuote : Info)
    (after : QuoteMap Info × Option Info) : Prop where
  new : after.1.findQuoteInfo newId = some newQuote
  absent : refId ≠ newId → after.1.findQuoteInfo refId = none
  others : ∀ id, id ≠ refId → id ≠ newId → after.1 id = before id
  nonNull : after.1.NonNull
  returned : after.2 = before.findQuoteInfo refId

structure RemoveLaw (before : QuoteMap Info) (refId : String) (after : QuoteMap Info × Option Info) :
    Prop where
  absent : after.1.findQuoteInfo refId = none
  others : ∀ id, id ≠ refId → after.1 id = before id
  nonNull : after.1.NonNull
  returned : after.2 = before.findQuoteInfo refId

end

section
variable {Info : Type*} {map : QuoteMap Info} {refId newId : String} {newQuote : Info}

theorem findQuoteInfo_named (named : refId ≠ "") : map.findQuoteInfo refId = (map refId).join := by
  unfold findQuoteInfo iterator
  cases present : map refId <;> simp [named, present]

theorem findQuoteInfo_empty : map.findQuoteInfo "" = none := by
  simp [findQuoteInfo, iterator]

theorem emplace_apply (id : String) (ptr : Option Info) (id' : String) :
    map.emplace id ptr id' = if id' = id ∧ map id = none then some ptr else map id' := by
  unfold emplace
  cases present : map id with
  | some old => simp
  | none =>
      by_cases same : id' = id
      · simp [same]
      · simp [same]

theorem iterator_cases (map : QuoteMap Info) (refId : String) :
    (map.iterator refId = some refId ∧ refId ≠ "" ∧ map refId ≠ none) ∨
    (map.iterator refId = none ∧ (refId = "" ∨ map refId = none)) := by
  unfold iterator
  split
  next found => exact .inl ⟨rfl, found.1, Option.isSome_iff_ne_none.mp found.2⟩
  next missing =>
    refine .inr ⟨rfl, ?_⟩
    by_contra other
    obtain ⟨named, present⟩ := not_or.mp other
    exact missing ⟨named, Option.isSome_iff_ne_none.mpr present⟩

theorem replaceQuoteInfoAt_apply (named : newId ≠ "") (id : String) :
    (map.replaceQuoteInfoAt (map.iterator refId) newId (some newQuote)).1 id =
      if id = newId then
        if newId = refId ∨ map newId = none then some (some newQuote) else map newId
      else if id = refId ∧ refId ≠ "" then none else map id := by
  rcases iterator_cases map refId with ⟨found, refNamed, present⟩ | ⟨missing, absent⟩
  · rw [found]
    unfold replaceQuoteInfoAt
    by_cases same : newId = refId
    · subst same
      by_cases here : id = newId
      · simp [here]
      · simp [here]
    · simp only [ne_eq, same, not_false_eq_true, if_true, emplace_apply, false_or,
        Function.update_of_ne same, Function.update_self, Option.join_some]
      by_cases here : id = newId
      · subst here
        simp [same]
      · by_cases old : id = refId
        · subst old
          simp [here, refNamed]
        · simp [here, old]
  · rw [missing]
    simp only [replaceQuoteInfoAt, emplace_apply]
    have absentNew : newId = refId → map newId = none := by
      rintro rfl
      exact absent.resolve_left named
    have absentRef : id = refId ∧ refId ≠ "" → map id = none := by
      rintro ⟨rfl, refNamed⟩
      exact absent.resolve_left refNamed
    by_cases here : id = newId
    · subst here
      by_cases free : map id = none
      · simp [free]
      · have other : id ≠ refId := fun same => free (absentNew same)
        simp [free, other]
    · by_cases old : id = refId ∧ refId ≠ ""
      · rw [if_neg fun both => here both.1, if_neg here, if_pos old, absentRef old]
      · simp [here, old]

theorem replaceQuoteInfoAt_returned (newId : String) (newQuote : Option Info) :
    (map.replaceQuoteInfoAt (map.iterator refId) newId newQuote).2 = map.findQuoteInfo refId := by
  unfold findQuoteInfo replaceQuoteInfoAt
  cases map.iterator refId with
  | none => rfl
  | some id => by_cases same : newId = id <;> simp [same]

theorem NonNull.update (nonNull : map.NonNull) (id : String) (entry : Option (Option Info))
    (filled : entry ≠ some none) : NonNull (Function.update map id entry) := by
  intro id'
  by_cases here : id' = id
  · subst here
    rwa [Function.update_self]
  · rw [Function.update_of_ne here]
    exact nonNull id'

theorem NonNull.emplace (nonNull : map.NonNull) (id : String) (newQuote : Info) :
    (map.emplace id (some newQuote)).NonNull := by
  intro id'
  rw [emplace_apply]
  split
  · exact nofun
  · exact nonNull id'

theorem NonNull.replaceQuoteInfoAt (nonNull : map.NonNull) (it : Option String) (newId : String)
    (newQuote : Info) : (map.replaceQuoteInfoAt it newId (some newQuote)).1.NonNull := by
  unfold QuoteMap.replaceQuoteInfoAt
  cases it with
  | none => exact nonNull.emplace newId newQuote
  | some id =>
      have replaced := nonNull.update id (some (some newQuote)) nofun
      simp only [Function.update_self, Option.join_some]
      split
      · exact (replaced.update id none nofun).emplace newId newQuote
      · exact replaced

theorem NonNull.removeQuoteInfo (nonNull : map.NonNull) (refId : String) :
    (map.removeQuoteInfo refId).1.NonNull := by
  unfold QuoteMap.removeQuoteInfo
  cases map.iterator refId with
  | none => exact nonNull
  | some id => exact nonNull.update id none nofun

theorem replaceLaw_iff (nonNull : map.NonNull) (named : newId ≠ "") :
    ReplaceLaw map refId newId newQuote
        (map.replaceQuoteInfoAt (map.iterator refId) newId (some newQuote)) ↔
      newId = refId ∨ map newId = none ∨ map newId = some (some newQuote) := by
  have new : (map.replaceQuoteInfoAt (map.iterator refId) newId (some newQuote)).1 newId =
      if newId = refId ∨ map newId = none then some (some newQuote) else map newId := by
    rw [replaceQuoteInfoAt_apply named, if_pos rfl]
  constructor
  · intro law
    have found := law.new
    rw [findQuoteInfo_named named, new] at found
    by_cases same : newId = refId
    · exact .inl same
    · cases held : map newId with
      | none => exact .inr (.inl rfl)
      | some ptr =>
          rw [if_neg (by simp [same, held]), held, Option.join_some] at found
          exact .inr (.inr (by rw [found]))
  · intro condition
    refine ⟨?_, ?_, ?_, nonNull.replaceQuoteInfoAt _ newId newQuote,
      replaceQuoteInfoAt_returned newId (some newQuote)⟩
    · rw [findQuoteInfo_named named, new]
      rcases condition with same | free | equal
      · simp [same]
      · simp [free]
      · simp [equal]
    · intro other
      by_cases refNamed : refId = ""
      · subst refNamed
        exact findQuoteInfo_empty
      · rw [findQuoteInfo_named refNamed, replaceQuoteInfoAt_apply named, if_neg other,
          if_pos ⟨rfl, refNamed⟩]
        rfl
    · intro id notRef notNew
      rw [replaceQuoteInfoAt_apply named, if_neg notNew, if_neg fun same => notRef same.1]

theorem removeQuoteInfo_apply (id : String) :
    (map.removeQuoteInfo refId).1 id = if id = refId ∧ refId ≠ "" then none else map id := by
  unfold removeQuoteInfo
  rcases iterator_cases map refId with ⟨found, refNamed, -⟩ | ⟨missing, absent⟩
  · rw [found]
    by_cases here : id = refId
    · simp [here, refNamed]
    · simp [here]
  · rw [missing]
    by_cases here : id = refId ∧ refId ≠ ""
    · obtain ⟨rfl, named⟩ := here
      simp [named, absent.resolve_left named]
    · rw [if_neg here]

theorem removeLaw (nonNull : map.NonNull) (refId : String) :
    RemoveLaw map refId (map.removeQuoteInfo refId) := by
  refine ⟨?_, ?_, nonNull.removeQuoteInfo refId, ?_⟩
  · by_cases named : refId = ""
    · subst named
      exact findQuoteInfo_empty
    · rw [findQuoteInfo_named named, removeQuoteInfo_apply, if_pos ⟨rfl, named⟩]
      rfl
  · intro id other
    rw [removeQuoteInfo_apply, if_neg fun same => other same.1]
  · unfold QuoteMap.removeQuoteInfo findQuoteInfo
    cases map.iterator refId <;> rfl

end

section
variable (map : QuoteMap StoredQuote) (refId newId : String)

/-- The constructor of `QuoteInfo` in the first `ReplaceQuoteInfo`. -/
def storedQuote (info : QuoteInfo) : StoredQuote :=
  { info with hashValue := 0, oriKey := info.key, sequenceTag := 0 }

def replaceQuoteInfo (info : QuoteInfo) : QuoteMap StoredQuote × Option StoredQuote :=
  map.replaceQuoteInfoAt (map.iterator refId) newId (some (storedQuote info))

def skipKey (forceKey : Bool) (hashValue : ℕ) : Bool :=
  !forceKey && (map.findQuoteInfo refId).any (fun q => q.hashValue == hashValue) && refId == newId

/-- The constructor of `QuoteInfo` in the second `ReplaceQuoteInfo`, and its `oriKey`. -/
def hashedQuote (forceKey : Bool) (hashValue sequenceTag : ℕ) (info : QuoteInfo) : StoredQuote :=
  { info with
    hashValue := hashValue
    oriKey := if map.skipKey refId newId forceKey hashValue
      then ((map.findQuoteInfo refId).map StoredQuote.oriKey).getD info.key else info.key
    sequenceTag := sequenceTag }

def replaceQuoteInfoHashed (forceKey : Bool) (hashValue sequenceTag : ℕ) (info : QuoteInfo) :
    (QuoteMap StoredQuote × Option StoredQuote) × Bool :=
  (map.replaceQuoteInfoAt (map.iterator refId) newId
      (some (map.hashedQuote refId newId forceKey hashValue sequenceTag info)),
    map.skipKey refId newId forceKey hashValue)

def removeOldQuoteInfos (limitKey : ℤ) : QuoteMap StoredQuote := fun id =>
  match map id with
  | some (some info) => if info.key < limitKey then none else some (some info)
  | other => other

end

inductive Call where
  | replace (refId newId : String) (info : QuoteInfo)
  | replaceHashed (forceKey : Bool) (refId newId : String) (hashValue sequenceTag : ℕ)
      (info : QuoteInfo)
  | remove (refId : String)
  | removeOld (limitKey : ℤ)

def step (map : QuoteMap StoredQuote) : Call → QuoteMap StoredQuote
  | .replace refId newId info => (map.replaceQuoteInfo refId newId info).1
  | .replaceHashed forceKey refId newId hashValue sequenceTag info =>
      (map.replaceQuoteInfoHashed refId newId forceKey hashValue sequenceTag info).1.1
  | .remove refId => (map.removeQuoteInfo refId).1
  | .removeOld limitKey => map.removeOldQuoteInfos limitKey

def empty : QuoteMap StoredQuote := fun _ => none

theorem step_nonNull (map : QuoteMap StoredQuote) (call : Call) (nonNull : map.NonNull) :
    (map.step call).NonNull := by
  cases call with
  | replace refId newId info => exact nonNull.replaceQuoteInfoAt _ newId _
  | replaceHashed forceKey refId newId hashValue sequenceTag info =>
      exact nonNull.replaceQuoteInfoAt _ newId _
  | remove refId => exact nonNull.removeQuoteInfo refId
  | removeOld limitKey =>
      intro id
      simp only [step, removeOldQuoteInfos]
      cases held : map id with
      | none => exact nofun
      | some ptr =>
          cases ptr with
          | none => exact absurd held (nonNull id)
          | some info => simp only; split <;> exact nofun

theorem run_nonNull (calls : List Call) : NonNull (run step empty calls) := by
  have start : NonNull empty := fun _ => nofun
  exact run_keeps step_nonNull start calls

/-- A replacement obeys the law where the new id is the old one or is free, or stands for an equal
info; a removal obeys its law always. -/
theorem mapLaw_iff (calls : List Call) (refId newId : String) (named : newId ≠ "") :
    let map := run step empty calls
    (∀ info, ReplaceLaw map refId newId (storedQuote info) (map.replaceQuoteInfo refId newId info) ↔
      newId = refId ∨ map newId = none ∨ map newId = some (some (storedQuote info))) ∧
    (∀ forceKey hashValue sequenceTag info,
      let newQuote := map.hashedQuote refId newId forceKey hashValue sequenceTag info
      ReplaceLaw map refId newId newQuote
          (map.replaceQuoteInfoHashed refId newId forceKey hashValue sequenceTag info).1 ↔
        newId = refId ∨ map newId = none ∨ map newId = some (some newQuote)) ∧
    RemoveLaw map refId (map.removeQuoteInfo refId) := by
  have nonNull := run_nonNull calls
  exact ⟨fun info => replaceLaw_iff nonNull named, fun _ _ _ _ => replaceLaw_iff nonNull named,
    removeLaw nonNull refId⟩

def eurUsdBid (key : ℤ) : QuoteInfo := ⟨key, ⟨Currency.eur, Currency.usd⟩, .bid⟩

theorem mapLaw_free : ReplaceLaw (run step empty [.replace "" "A" (eurUsdBid 1)]) "A" "B"
    (storedQuote (eurUsdBid 2))
    ((run step empty [.replace "" "A" (eurUsdBid 1)]).replaceQuoteInfo "A" "B" (eurUsdBid 2)) :=
  ((mapLaw_iff [.replace "" "A" (eurUsdBid 1)] "A" "B" (by decide)).1 (eurUsdBid 2)).mpr
    (.inr (.inl (by decide)))

theorem mapLaw_taken :
    ¬ ∀ (calls : List Call) (refId newId : String), newId ≠ "" → ∀ info,
      ReplaceLaw (run step empty calls) refId newId (storedQuote info)
        ((run step empty calls).replaceQuoteInfo refId newId info) := by
  intro law
  have new := (law [.replace "" "A" (eurUsdBid 1), .replace "" "B" (eurUsdBid 2)] "A" "B"
    (by decide) (eurUsdBid 3)).new
  revert new
  decide

def toTable (map : QuoteMap StoredQuote) : ActiveQuoteTable := fun id =>
  (map id).join.map StoredQuote.toQuoteInfo

section
variable {map : QuoteMap StoredQuote} {refId newId : String}

theorem toTable_update (id : String) (entry : Option (Option StoredQuote)) :
    toTable (Function.update map id entry) =
      Function.update (toTable map) id (entry.join.map StoredQuote.toQuoteInfo) := by
  funext id'
  unfold toTable
  by_cases here : id' = id
  · simp [here]
  · simp [here]

theorem toTable_emplace (nonNull : map.NonNull) (id : String) (newQuote : StoredQuote) :
    toTable (map.emplace id (some newQuote)) =
      (toTable map).emplace id newQuote.toQuoteInfo := by
  unfold emplace ActiveQuoteTable.emplace
  match held : map id with
  | none =>
      have absent : toTable map id = none := by simp [toTable, held]
      rw [absent, toTable_update]
      rfl
  | some none => exact absurd held (nonNull id)
  | some (some old) =>
      have present : toTable map id = some old.toQuoteInfo := by simp [toTable, held]
      rw [present]

theorem toTable_findQuoteInfo :
    (toTable map).findQuoteInfo refId = (map.findQuoteInfo refId).map StoredQuote.toQuoteInfo := by
  unfold ActiveQuoteTable.findQuoteInfo
  by_cases named : refId = ""
  · subst named
    rw [findQuoteInfo_empty]
    rfl
  · rw [if_neg named, findQuoteInfo_named named]
    rfl

theorem found_or_missing (nonNull : map.NonNull) (refId : String) :
    (∃ old, map.iterator refId = some refId ∧ map.findQuoteInfo refId = some old) ∨
    (map.iterator refId = none ∧ map.findQuoteInfo refId = none) := by
  rcases iterator_cases map refId with ⟨found, refNamed, present⟩ | ⟨missing, -⟩
  · match held : map refId with
    | none => exact absurd held present
    | some none => exact absurd held (nonNull refId)
    | some (some old) => exact .inl ⟨old, found, by rw [findQuoteInfo_named refNamed, held]; rfl⟩
  · exact .inr ⟨missing, by simp [findQuoteInfo, missing]⟩

/-- A reader of the map sees the replacement that `ActiveQuoteTable` has. -/
theorem toTable_replaceQuoteInfoAt (nonNull : map.NonNull) (newQuote : StoredQuote) :
    toTable (map.replaceQuoteInfoAt (map.iterator refId) newId (some newQuote)).1 =
      ((toTable map).replaceQuoteInfo refId newId newQuote.toQuoteInfo).1 := by
  unfold ActiveQuoteTable.replaceQuoteInfo
  rw [toTable_findQuoteInfo]
  rcases found_or_missing nonNull refId with ⟨old, found, known⟩ | ⟨missing, unknown⟩
  · rw [found, known]
    simp only [replaceQuoteInfoAt, Option.map_some]
    by_cases same : newId = refId
    · simp [same, toTable_update]
    · have left : NonNull (Function.update map refId none) := nonNull.update refId none nofun
      simp [same, toTable_emplace left, toTable_update]
  · rw [missing, unknown]
    exact toTable_emplace nonNull newId newQuote

/-- A reader of the map sees the removal that `ActiveQuoteTable` has. -/
theorem toTable_removeQuoteInfo (nonNull : map.NonNull) :
    toTable (map.removeQuoteInfo refId).1 = ((toTable map).removeQuoteInfo refId).1 := by
  unfold ActiveQuoteTable.removeQuoteInfo removeQuoteInfo
  rw [toTable_findQuoteInfo]
  rcases found_or_missing nonNull refId with ⟨old, found, known⟩ | ⟨missing, unknown⟩
  · rw [found, known]
    exact toTable_update refId none
  · rw [missing, unknown]
    rfl

end

end QuoteMap

end SpotGridBot.Feed
