import SpotGridBot.Feed.QuoteMap
import SpotGridBot.Lib.XorSum
import Mathlib.Data.Countable.Basic
import Mathlib.Data.Rat.Encodable
import Mathlib.Logic.Equiv.List

namespace SpotGridBot.Feed
open Utils Runs XorSum

section
variable (dblHash : ℚ → ℕ) (strHash : String → ℕ)

def calculateHashValue (entry : Entry) : ℕ :=
  let result := dblHash entry.volume ^^^ dblHash entry.price ^^^ dblHash entry.minQty
  if entry.quoteId ≠ "" then result ^^^ strHash entry.quoteId else result

end

structure QuoteUpdate where
  forceKey : Bool
  refId : String
  newId : String
  sequenceTag : ℕ
  info : QuoteInfo
  entry : Entry

structure HashedQuotes where
  map : QuoteMap StoredQuote := QuoteMap.empty
  entries : QuoteMap Entry := fun _ => none

namespace HashedQuotes

section
variable (dblHash : ℚ → ℕ) (strHash : String → ℕ) (h : HashedQuotes) (u : QuoteUpdate)

def replaceQuoteInfo : (QuoteMap StoredQuote × Option StoredQuote) × Bool :=
  h.map.replaceQuoteInfoHashed u.refId u.newId u.forceKey
    (calculateHashValue dblHash strHash u.entry) u.sequenceTag u.info

def step : HashedQuotes where
  map := (h.replaceQuoteInfo dblHash strHash u).1.1
  entries := (h.entries.replaceQuoteInfoAt (h.entries.iterator u.refId) u.newId (some u.entry)).1

end

def SameContent (old new : Entry) : Prop :=
  old.volume = new.volume ∧ old.price = new.price ∧ old.minQty = new.minQty ∧
    old.quoteId = new.quoteId

instance (old new : Entry) : Decidable (SameContent old new) :=
  inferInstanceAs (Decidable (_ ∧ _))

def numbers (entry : Entry) : List ℚ := [entry.volume, entry.price, entry.minQty]

def ids (entry : Entry) : List String := if entry.quoteId = "" then [] else [entry.quoteId]

def ToldApart (dblHash : ℚ → ℕ) (strHash : String → ℕ) (old new : Entry) : Prop :=
  xorSum dblHash (oddly (numbers old ++ numbers new)) ^^^
    xorSum strHash (oddly (ids old ++ ids new)) ≠ 0

variable {dblHash : ℚ → ℕ} {strHash : String → ℕ}

theorem calculateHashValue_eq (entry : Entry) :
    calculateHashValue dblHash strHash entry =
      xorSum dblHash (numbers entry) ^^^ xorSum strHash (ids entry) := by
  unfold calculateHashValue numbers ids
  by_cases unnamed : entry.quoteId = ""
  · simp [unnamed, xorSum, Nat.xor_assoc]
  · simp [unnamed, xorSum, Nat.xor_assoc]

theorem toldApart_iff (old new : Entry) :
    ToldApart dblHash strHash old new ↔
      calculateHashValue dblHash strHash old ≠ calculateHashValue dblHash strHash new := by
  have regroup : ∀ a b c d : ℕ, (a ^^^ b) ^^^ (c ^^^ d) = (a ^^^ c) ^^^ (b ^^^ d) := by
    intro a b c d
    ac_rfl
  unfold ToldApart
  rw [xorSum_oddly, xorSum_oddly, xorSum_append, xorSum_append, regroup, ← calculateHashValue_eq,
    ← calculateHashValue_eq, Ne, Nat.xor_eq_zero_iff]

def mapInfo {Info Info' : Type*} (f : Info → Info') (map : QuoteMap Info) : QuoteMap Info' :=
  fun id => (map id).map (Option.map f)

section
variable {Info Info' : Type*} (f : Info → Info') (map : QuoteMap Info)

theorem mapInfo_iterator (refId : String) :
    (mapInfo f map).iterator refId = map.iterator refId := by
  simp [QuoteMap.iterator, mapInfo]

theorem mapInfo_findQuoteInfo (refId : String) :
    (mapInfo f map).findQuoteInfo refId = (map.findQuoteInfo refId).map f := by
  unfold QuoteMap.findQuoteInfo
  rw [mapInfo_iterator]
  cases map.iterator refId with
  | none => rfl
  | some id => cases held : map id <;> simp [mapInfo, held]

theorem mapInfo_update (id : String) (entry : Option (Option Info)) :
    mapInfo f (Function.update map id entry) =
      Function.update (mapInfo f map) id (entry.map (Option.map f)) := by
  funext id'
  unfold mapInfo
  by_cases here : id' = id
  · simp [here]
  · simp [here]

theorem mapInfo_emplace (id : String) (ptr : Option Info) :
    mapInfo f (map.emplace id ptr) = (mapInfo f map).emplace id (ptr.map f) := by
  unfold QuoteMap.emplace
  cases held : map id with
  | none =>
      have absent : mapInfo f map id = none := by simp [mapInfo, held]
      rw [absent, mapInfo_update]
      rfl
  | some old =>
      have present : mapInfo f map id = some (old.map f) := by simp [mapInfo, held]
      rw [present]

theorem mapInfo_replaceQuoteInfoAt (it : Option String) (newId : String) (newQuote : Option Info) :
    mapInfo f (map.replaceQuoteInfoAt it newId newQuote).1 =
      ((mapInfo f map).replaceQuoteInfoAt it newId (newQuote.map f)).1 := by
  unfold QuoteMap.replaceQuoteInfoAt
  cases it with
  | none => exact mapInfo_emplace f map newId newQuote
  | some id =>
      by_cases same : newId = id
      · simp [same, mapInfo_update]
      · simp [same, mapInfo_emplace, mapInfo_update]

end

def Tracked (dblHash : ℚ → ℕ) (strHash : String → ℕ) (h : HashedQuotes) : Prop :=
  mapInfo StoredQuote.hashValue h.map = mapInfo (calculateHashValue dblHash strHash) h.entries

theorem step_tracked (h : HashedQuotes) (u : QuoteUpdate) (tracked : Tracked dblHash strHash h) :
    Tracked dblHash strHash (h.step dblHash strHash u) := by
  have same : h.map.iterator u.refId = h.entries.iterator u.refId := by
    rw [← mapInfo_iterator StoredQuote.hashValue, tracked, mapInfo_iterator]
  unfold Tracked step replaceQuoteInfo QuoteMap.replaceQuoteInfoHashed
  rw [mapInfo_replaceQuoteInfoAt, mapInfo_replaceQuoteInfoAt, tracked, same]
  rfl

theorem run_tracked (dblHash : ℚ → ℕ) (strHash : String → ℕ) (updates : List QuoteUpdate) :
    Tracked dblHash strHash (run (step dblHash strHash) {} updates) := by
  have start : Tracked dblHash strHash {} := rfl
  exact run_keeps step_tracked start updates

theorem Tracked.skipKey_iff {h : HashedQuotes} (tracked : Tracked dblHash strHash h)
    (u : QuoteUpdate) :
    (h.replaceQuoteInfo dblHash strHash u).2 = true ↔
      u.forceKey = false ∧ u.refId = u.newId ∧ ∃ old, h.entries.findQuoteInfo u.refId = some old ∧
        ¬ ToldApart dblHash strHash old u.entry := by
  have found : (h.map.findQuoteInfo u.refId).map StoredQuote.hashValue =
      (h.entries.findQuoteInfo u.refId).map (calculateHashValue dblHash strHash) := by
    rw [← mapInfo_findQuoteInfo, tracked, mapInfo_findQuoteInfo]
  have hashes : (h.map.findQuoteInfo u.refId).any
        (fun q => q.hashValue == calculateHashValue dblHash strHash u.entry) = true ↔
      ∃ old, h.entries.findQuoteInfo u.refId = some old ∧
        ¬ ToldApart dblHash strHash old u.entry := by
    simp only [toldApart_iff, ne_eq, not_not]
    cases entry : h.entries.findQuoteInfo u.refId with
    | none =>
        rw [entry, Option.map_none, Option.map_eq_none_iff] at found
        simp [found]
    | some old =>
        rw [entry, Option.map_some, Option.map_eq_some_iff] at found
        obtain ⟨q, stored, same⟩ := found
        simp [stored, same]
  show h.map.skipKey u.refId u.newId u.forceKey _ = true ↔ _
  rw [QuoteMap.skipKey, Bool.and_eq_true, Bool.and_eq_true, hashes]
  simp only [Bool.not_eq_true', beq_iff_eq]
  tauto

/-- A skipped update changes nothing, where the hashes tell a change apart. -/
theorem skipped_unchanged_iff (dblHash : ℚ → ℕ) (strHash : String → ℕ)
    (updates : List QuoteUpdate) (u : QuoteUpdate) :
    let h := run (step dblHash strHash) {} updates
    let unforced := { u with forceKey := false }
    ((h.replaceQuoteInfo dblHash strHash unforced).2 = true →
        ∃ old, h.entries.findQuoteInfo u.refId = some old ∧ SameContent old u.entry) ↔
      ∀ old, h.entries.findQuoteInfo u.refId = some old → u.refId = u.newId →
        SameContent old u.entry ∨ ToldApart dblHash strHash old u.entry := by
  have tracked := run_tracked dblHash strHash updates
  generalize run (step dblHash strHash) {} updates = h at tracked
  simp only [tracked.skipKey_iff]
  constructor
  · intro unchanged old found sameId
    by_cases apart : ToldApart dblHash strHash old u.entry
    · exact .inr apart
    · obtain ⟨old', found', same⟩ := unchanged ⟨trivial, sameId, old, found, apart⟩
      obtain rfl : old = old' := Option.some.inj (found.symm.trans found')
      exact .inl same
  · rintro apart ⟨-, sameId, old, found, confused⟩
    exact ⟨old, found, (apart old found sameId).resolve_right confused⟩

def quoteOf (volume price minQty : ℚ) : Entry :=
  { volume := volume, price := price, minQty := minQty }

theorem resized_skipped :
    ¬ ∀ (dblHash : ℚ → ℕ) (strHash : String → ℕ), dblHash.Injective → strHash.Injective →
      ∀ (updates : List QuoteUpdate) (u : QuoteUpdate), u.forceKey = false →
        let h := run (step dblHash strHash) {} updates
        (h.replaceQuoteInfo dblHash strHash u).2 = true →
          ∃ old, h.entries.findQuoteInfo u.refId = some old ∧ SameContent old u.entry := by
  intro unchanged
  have chars : Countable Char :=
    Function.Injective.countable fun _ _ same => Char.toNat_inj.mp same
  have strings : Countable String :=
    Function.Injective.countable fun _ _ same => String.toList_inj.mp same
  obtain ⟨dblHash, dblInjective⟩ := exists_injective_nat ℚ
  obtain ⟨strHash, strInjective⟩ := exists_injective_nat String
  let first : QuoteUpdate := ⟨false, "", "Q", 0, QuoteMap.eurUsdBid 1, quoteOf 5 1 5⟩
  let resized : QuoteUpdate := ⟨false, "Q", "Q", 0, QuoteMap.eurUsdBid 2, quoteOf 7 1 7⟩
  have tracked := run_tracked dblHash strHash [first]
  have found : (run (step dblHash strHash) {} [first]).entries.findQuoteInfo "Q" =
      some (quoteOf 5 1 5) := by
    simp [run, step, QuoteMap.findQuoteInfo, QuoteMap.iterator, QuoteMap.replaceQuoteInfoAt,
      QuoteMap.emplace, first]
  have cancels : ¬ ToldApart dblHash strHash (quoteOf 5 1 5) (quoteOf 7 1 7) := by
    have numbers : oddly (numbers (quoteOf 5 1 5) ++ numbers (quoteOf 7 1 7)) = [] := by decide
    rw [ToldApart, numbers]
    simp [ids, quoteOf, oddly, xorSum]
  have skipped := (tracked.skipKey_iff resized).mpr ⟨rfl, rfl, _, found, cancels⟩
  obtain ⟨old, found', same⟩ :=
    unchanged dblHash strHash dblInjective strInjective [first] resized rfl skipped
  obtain rfl : quoteOf 5 1 5 = old := Option.some.inj (found.symm.trans found')
  exact absurd same.1 (by decide)

end HashedQuotes

end SpotGridBot.Feed
