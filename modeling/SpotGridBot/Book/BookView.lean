import SpotGridBot.Book.Levels
import SpotGridBot.Lib.Filling
import SpotGridBot.Utils.Wrapping

namespace SpotGridBot.Book
open Filling Utils

section
variable {Ptr σ : Type*} (quote : Ptr → Quote) (used : Ptr → Bool)

def volumeOf (q : Ptr) : ℤ := (quote q).volume

def unused (quotes : List Ptr) : List Ptr := quotes.filter fun q => !used q

namespace BookView

/-- What `AggregateLevel` does with one quote, over `quoteVec` and `volume`. -/
def aggregateLevel.forQuote : List Ptr × ℤ → Ptr → List Ptr × ℤ
  | (quoteVec, volume), q =>
      if 0 < volume ∧ used q = false then (quoteVec ++ [q], volume - (quote q).volume)
      else (quoteVec, volume)

def aggregateLevel.action : QuoteGroupFunc (List Ptr × ℤ) Ptr := fun s _ quoteGroup _ =>
  let s := quoteGroup.foldl (aggregateLevel.forQuote quote used) s
  (s, 0 < s.2)

def aggregateLevel (volume : ℤ) (levels : List (List Ptr)) : List Ptr :=
  (passLevels (aggregateLevel.action quote used) ([], volume) 1 levels).1

structure Aggregation (σ Ptr : Type*) where
  quoteVec : List Ptr := []
  aggVolume : ℤ := 0
  aggLevel : ℕ := 0
  state : σ

def aggregateLevels.forQuote (minVolumePerLevel : ℤ) (action : QuoteGroupFunc σ Ptr) :
    Aggregation σ Ptr × Bool → Ptr → Aggregation σ Ptr × Bool
  | (a, cont), q =>
      if cont = true ∧ used q = false then
        let a := { a with
          quoteVec := a.quoteVec ++ [q]
          aggVolume := int64 (a.aggVolume + (quote q).volume) }
        if a.aggVolume ≥ minVolumePerLevel then
          let (state, cont) := action a.state a.aggLevel a.quoteVec cont
          ({ quoteVec := [], aggVolume := 0, aggLevel := a.aggLevel + 1, state := state }, cont)
        else (a, cont)
      else (a, cont)

def aggregateLevels.action (minVolumePerLevel : ℤ) (action : QuoteGroupFunc σ Ptr) :
    QuoteGroupFunc (Aggregation σ Ptr) Ptr := fun a _ quoteGroup cont =>
  quoteGroup.foldl (aggregateLevels.forQuote quote used minVolumePerLevel action) (a, cont)

def aggregateLevels.leftOver (action : QuoteGroupFunc σ Ptr) (a : Aggregation σ Ptr) : σ :=
  if a.quoteVec.isEmpty then a.state else (action a.state a.aggLevel a.quoteVec true).1

def aggregateLevels (minVolumePerLevel : ℤ) (action : QuoteGroupFunc σ Ptr) (state : σ)
    (levels : List (List Ptr)) : σ :=
  aggregateLevels.leftOver action
    (passLevels (aggregateLevels.action quote used minVolumePerLevel action)
      { state := state } 1 levels)

end BookView
end

namespace BookView
variable {Ptr σ : Type*} {quote : Ptr → Quote} {used : Ptr → Bool}

theorem forQuote_reached {quoteVec : List Ptr} {volume : ℤ} (reached : ¬ 0 < volume)
    (quotes : List Ptr) :
    quotes.foldl (aggregateLevel.forQuote quote used) (quoteVec, volume) = (quoteVec, volume) := by
  induction quotes with
  | nil => rfl
  | cons q quotes ih => simpa [aggregateLevel.forQuote, reached] using ih

theorem passLevels_aggregateLevel (s : List Ptr × ℤ) (level : ℕ) (levels : List (List Ptr)) :
    passLevels (aggregateLevel.action quote used) s level levels =
      levels.flatten.foldl (aggregateLevel.forQuote quote used) s := by
  induction levels generalizing s level with
  | nil => rfl
  | cons quoteGroup rest ih =>
      rw [List.flatten_cons, List.foldl_append]
      unfold passLevels aggregateLevel.action
      simp only [decide_eq_true_eq]
      split
      next => exact ih _ _
      next reached => exact (forQuote_reached reached _).symm

theorem forQuote_fill (quoteVec : List Ptr) (volume : ℤ) (quotes : List Ptr) :
    (quotes.foldl (aggregateLevel.forQuote quote used) (quoteVec, volume)).1 =
      quoteVec ++ fill (volumeOf quote) volume (unused used quotes) := by
  induction quotes generalizing quoteVec volume with
  | nil => simp [unused, fill]
  | cons q quotes ih =>
      rw [List.foldl_cons]
      by_cases free : used q = false
      · by_cases wanted : 0 < volume
        · simp [aggregateLevel.forQuote, wanted, free, ih, unused, fill, volumeOf]
        · simp [aggregateLevel.forQuote, wanted, forQuote_reached, free, unused, fill]
      · simp [aggregateLevel.forQuote, ih, free, unused]

/-- The group holds the shortest beginning of the unused quotes that reaches the volume, or all of
them where they do not reach it. -/
theorem aggregateLevel_filled (quote : Ptr → Quote) (used : Ptr → Bool) (volume : ℤ)
    (levels : List (List Ptr)) :
    Filled (volumeOf quote) volume (unused used levels.flatten)
      (aggregateLevel quote used volume levels) := by
  unfold aggregateLevel
  rw [passLevels_aggregateLevel, forQuote_fill, List.nil_append]
  exact fill_filled _ _ _

structure Call (Ptr : Type*) where
  level : ℕ
  quoteGroup : List Ptr
  cont : Bool
deriving DecidableEq

def logged (action : QuoteGroupFunc σ Ptr) : QuoteGroupFunc (σ × List (Call Ptr)) Ptr :=
  fun (s, calls) level quoteGroup cont =>
    let (s, cont) := action s level quoteGroup cont
    ((s, calls ++ [⟨level, quoteGroup, cont⟩]), cont)

def callsOf (quote : Ptr → Quote) (used : Ptr → Bool) (minVolumePerLevel : ℤ)
    (action : QuoteGroupFunc σ Ptr) (s : σ) (levels : List (List Ptr)) : List (Call Ptr) :=
  (aggregateLevels quote used minVolumePerLevel (logged action) (s, []) levels).2

theorem passLevels_aggregateLevels (minVolumePerLevel : ℤ) (action : QuoteGroupFunc σ Ptr)
    (a : Aggregation σ Ptr) (level : ℕ) (levels : List (List Ptr)) :
    passLevels (aggregateLevels.action quote used minVolumePerLevel action) a level levels =
      (levels.flatten.foldl (aggregateLevels.forQuote quote used minVolumePerLevel action)
        (a, true)).1 := by
  have stays : ∀ (a : Aggregation σ Ptr) (quotes : List Ptr),
      quotes.foldl (aggregateLevels.forQuote quote used minVolumePerLevel action) (a, false) =
        (a, false) := by
    intro a quotes
    induction quotes with
    | nil => rfl
    | cons q quotes ih => simpa [aggregateLevels.forQuote] using ih
  induction levels generalizing a level with
  | nil => rfl
  | cons quoteGroup rest ih =>
      rw [List.flatten_cons, List.foldl_append]
      unfold passLevels aggregateLevels.action
      cases after : quoteGroup.foldl
          (aggregateLevels.forQuote quote used minVolumePerLevel action) (a, true) with
      | mk a cont =>
          cases cont with
          | true => exact ih a (level + 1)
          | false => rw [stays]; rfl

structure Collecting (a : Aggregation (σ × List (Call Ptr)) Ptr) (cont : Bool) : Prop where
  levels : a.state.2.map Call.level = List.range a.state.2.length
  level : a.aggLevel = a.state.2.length
  going : cont = true → ∀ call ∈ a.state.2, call.cont = true
  stopped : cont = false → a.quoteVec = [] ∧ ∀ call ∈ a.state.2.dropLast, call.cont = true

theorem levels_append {calls : List (Call Ptr)}
    (levels : calls.map Call.level = List.range calls.length) (quoteVec : List Ptr) (cont : Bool) :
    (calls ++ [Call.mk calls.length quoteVec cont]).map Call.level =
      List.range (calls ++ [Call.mk calls.length quoteVec cont]).length := by
  rw [List.map_append, levels, List.length_append, List.length_singleton, List.range_succ]
  rfl

theorem Collecting.step {minVolumePerLevel : ℤ} (action : QuoteGroupFunc σ Ptr)
    {a : Aggregation (σ × List (Call Ptr)) Ptr} {cont : Bool} (collecting : Collecting a cont)
    (q : Ptr) :
    let after := aggregateLevels.forQuote quote used minVolumePerLevel (logged action) (a, cont) q
    Collecting after.1 after.2 := by
  simp only [aggregateLevels.forQuote]
  split
  next taken =>
    obtain ⟨rfl, -⟩ := taken
    have going := collecting.going rfl
    split
    next reached =>
      simp only [logged, collecting.level]
      refine ⟨levels_append collecting.levels _ _, by simp, ?_, fun _ => ⟨rfl, by simpa using going⟩⟩
      intro goesOn
      exact List.forall_mem_append.mpr ⟨going, by simpa using goesOn⟩
    next short => exact ⟨collecting.levels, collecting.level, collecting.going, nofun⟩
  next left => exact collecting

variable (quote used) in
theorem Collecting.pass (minVolumePerLevel : ℤ) (action : QuoteGroupFunc σ Ptr)
    {a : Aggregation (σ × List (Call Ptr)) Ptr} {cont : Bool} (collecting : Collecting a cont)
    (quotes : List Ptr) :
    let after := quotes.foldl
      (aggregateLevels.forQuote quote used minVolumePerLevel (logged action)) (a, cont)
    Collecting after.1 after.2 := by
  induction quotes generalizing a cont with
  | nil => exact collecting
  | cons q quotes ih => exact ih (collecting.step action q)

theorem aggregateLevels_stops (quote : Ptr → Quote) (used : Ptr → Bool) (minVolumePerLevel : ℤ)
    (action : QuoteGroupFunc σ Ptr) (s : σ) (levels : List (List Ptr)) :
    let calls := callsOf quote used minVolumePerLevel action s levels
    calls.map Call.level = List.range calls.length ∧ ∀ call ∈ calls.dropLast, call.cont = true := by
  have start : Collecting ({ state := (s, []) } : Aggregation (σ × List (Call Ptr)) Ptr) true :=
    ⟨rfl, rfl, by simp, nofun⟩
  have collecting := start.pass quote used minVolumePerLevel action levels.flatten
  simp only [callsOf, aggregateLevels, aggregateLevels.leftOver, passLevels_aggregateLevels]
  generalize levels.flatten.foldl (aggregateLevels.forQuote quote used minVolumePerLevel
    (logged action)) ({ state := (s, []) }, true) = after at collecting ⊢
  obtain ⟨a, cont⟩ := after
  simp only at collecting ⊢
  by_cases empty : a.quoteVec = []
  · rw [if_pos (by simp [empty])]
    refine ⟨collecting.levels, ?_⟩
    cases cont with
    | true => exact fun call made => collecting.going rfl call (List.mem_of_mem_dropLast made)
    | false => exact (collecting.stopped rfl).2
  · have goesOn : cont = true :=
      Bool.eq_true_of_not_eq_false fun stops => empty (collecting.stopped stops).1
    rw [if_neg (by simpa using empty)]
    simp only [logged, collecting.level]
    exact ⟨levels_append collecting.levels _ _, by simpa using collecting.going goesOn⟩

def Keeps (action : QuoteGroupFunc σ Ptr) : Prop :=
  ∀ s level quoteGroup, (action s level quoteGroup true).2 = true

def cuts (quote : Ptr → Quote) (minVolumePerLevel : ℤ) :
    ℤ → List Ptr → List Ptr → List (List Ptr)
  | _, quoteVec, [] => if quoteVec.isEmpty then [] else [quoteVec]
  | aggVolume, quoteVec, q :: quotes =>
      if int64 (aggVolume + (quote q).volume) ≥ minVolumePerLevel then
        (quoteVec ++ [q]) :: cuts quote minVolumePerLevel 0 [] quotes
      else cuts quote minVolumePerLevel (int64 (aggVolume + (quote q).volume)) (quoteVec ++ [q]) quotes

theorem leftOver_groups {action : QuoteGroupFunc σ Ptr} (keeps : Keeps action)
    {minVolumePerLevel : ℤ} (a : Aggregation (σ × List (Call Ptr)) Ptr) (quotes : List Ptr) :
    (aggregateLevels.leftOver (logged action) (quotes.foldl
      (aggregateLevels.forQuote quote used minVolumePerLevel (logged action)) (a, true)).1).2.map
        Call.quoteGroup =
      a.state.2.map Call.quoteGroup ++
        cuts quote minVolumePerLevel a.aggVolume a.quoteVec (unused used quotes) := by
  induction quotes generalizing a with
  | nil =>
      rw [List.foldl_nil]
      simp only [unused, List.filter_nil, cuts, aggregateLevels.leftOver]
      by_cases empty : a.quoteVec.isEmpty = true
      · rw [if_pos empty, if_pos empty, List.append_nil]
      · rw [if_neg empty, if_neg empty]
        simp [logged]
  | cons q quotes ih =>
      rw [List.foldl_cons]
      by_cases free : used q = false
      · have more : unused used (q :: quotes) = q :: unused used quotes := by simp [unused, free]
        have goesOn : (logged action a.state a.aggLevel (a.quoteVec ++ [q]) true).2 = true :=
          keeps _ _ _
        rw [more, cuts]
        by_cases reached : int64 (a.aggVolume + (quote q).volume) ≥ minVolumePerLevel
        · have taken : aggregateLevels.forQuote quote used minVolumePerLevel (logged action)
              (a, true) q = ({
                aggLevel := a.aggLevel + 1
                state := (logged action a.state a.aggLevel (a.quoteVec ++ [q]) true).1 }, true) := by
            simp [aggregateLevels.forQuote, free, reached, goesOn]
          rw [taken, ih, if_pos reached]
          simp [logged]
        · have taken : aggregateLevels.forQuote quote used minVolumePerLevel (logged action)
              (a, true) q = ({ a with
                quoteVec := a.quoteVec ++ [q]
                aggVolume := int64 (a.aggVolume + (quote q).volume) }, true) := by
            simp [aggregateLevels.forQuote, free, reached]
          rw [taken, ih, if_neg reached]
      · have more : unused used (q :: quotes) = unused used quotes := by simp [unused, free]
        rw [more, ← ih]
        simp [aggregateLevels.forQuote, free]

theorem groups_eq_cuts {action : QuoteGroupFunc σ Ptr} (keeps : Keeps action)
    (minVolumePerLevel : ℤ) (s : σ) (levels : List (List Ptr)) :
    (callsOf quote used minVolumePerLevel action s levels).map Call.quoteGroup =
      cuts quote minVolumePerLevel 0 [] (unused used levels.flatten) := by
  simp only [callsOf, aggregateLevels, passLevels_aggregateLevels]
  exact leftOver_groups keeps _ _

variable (quote) in
theorem cuts_keep (minVolumePerLevel aggVolume : ℤ) (quoteVec : List Ptr) (q : Ptr)
    (quotes : List Ptr) : ∃ group groups,
      cuts quote minVolumePerLevel aggVolume quoteVec (q :: quotes) = group :: groups ∧
      quoteVec ++ [q] <+: group := by
  induction quotes generalizing aggVolume quoteVec q with
  | nil =>
      unfold cuts
      split
      next => exact ⟨_, _, rfl, List.prefix_rfl⟩
      next => exact ⟨_, _, by simp [cuts]; rfl, List.prefix_rfl⟩
  | cons q' quotes ih =>
      unfold cuts
      split
      next => exact ⟨_, _, rfl, List.prefix_rfl⟩
      next =>
        obtain ⟨group, groups, cut, keeps⟩ :=
          ih (int64 (aggVolume + (quote q).volume)) (quoteVec ++ [q]) q'
        exact ⟨group, groups, cut, (List.prefix_append _ _).trans keeps⟩

def Fits (quote : Ptr → Quote) (groups : List (List Ptr)) : Prop :=
  ∀ group ∈ groups.dropLast, total (volumeOf quote) group < 2 ^ 63

theorem fits_cons (group : List Ptr) (groups : List (List Ptr)) :
    Fits quote (group :: groups) ↔
      (groups ≠ [] → total (volumeOf quote) group < 2 ^ 63) ∧ Fits quote groups := by
  cases groups with
  | nil => simp [Fits]
  | cons next groups => simp [Fits]

theorem cuts_eq_chunks_iff {minVolumePerLevel : ℤ} (minimum : minVolumePerLevel < 2 ^ 63)
    (quoteVec quotes : List Ptr)
    (volumes : ∀ q ∈ quotes, 0 ≤ (quote q).volume ∧ (quote q).volume < 2 ^ 63)
    (nonneg : 0 ≤ total (volumeOf quote) quoteVec)
    (short : quoteVec ≠ [] → total (volumeOf quote) quoteVec < minVolumePerLevel) :
    cuts quote minVolumePerLevel (total (volumeOf quote) quoteVec) quoteVec quotes =
        chunks (volumeOf quote) minVolumePerLevel quoteVec quotes ↔
      Fits quote (chunks (volumeOf quote) minVolumePerLevel quoteVec quotes) := by
  induction quotes generalizing quoteVec with
  | nil =>
      unfold cuts chunks Fits
      split <;> simp
  | cons q quotes ih =>
      obtain ⟨⟨low, high⟩, volumes⟩ := List.forall_mem_cons.mp volumes
      have sum : total (volumeOf quote) (quoteVec ++ [q]) =
          total (volumeOf quote) quoteVec + (quote q).volume := by simp [volumeOf]
      by_cases fits : total (volumeOf quote) quoteVec + (quote q).volume < 2 ^ 63
      · rw [cuts, chunks, int64_eq (by omega) fits, ← sum]
        split
        next reached =>
          have later := ih [] volumes (by simp) (by simp)
          rw [total_nil] at later
          rw [List.cons_inj_right, later, fits_cons]
          exact (and_iff_right fun _ => by omega).symm
        next missing => exact ih _ volumes (by omega) (fun _ => not_le.mp missing)
      · have some : quoteVec ≠ [] := by
          rintro rfl
          rw [total_nil] at fits
          omega
        have before := short some
        have wrapped : int64 (total (volumeOf quote) quoteVec + (quote q).volume) <
            minVolumePerLevel := by
          unfold int64
          omega
        rw [cuts, chunks, if_neg (not_le.mpr wrapped), if_pos (by omega), fits_cons]
        cases quotes with
        | nil => simp [cuts, chunks, Fits]
        | cons q' quotes =>
            obtain ⟨group, groups, cut, keeps⟩ := cuts_keep quote minVolumePerLevel
              (int64 (total (volumeOf quote) quoteVec + (quote q).volume)) (quoteVec ++ [q]) q'
              quotes
            have follows : chunks (volumeOf quote) minVolumePerLevel [] (q' :: quotes) ≠ [] := by
              unfold chunks
              split
              next => exact List.cons_ne_nil _ _
              next => exact chunks_ne_nil (by simp) _
            constructor
            · intro same
              rw [cut] at same
              have longer := keeps.length_le
              rw [(List.cons.inj same).1] at longer
              simp at longer
            · intro small
              have := small.1 follows
              omega

structure Aggregated (quote : Ptr → Quote) (used : Ptr → Bool) (minVolumePerLevel : ℤ)
    (action : QuoteGroupFunc σ Ptr) (levels : List (List Ptr)) (calls : List (Call Ptr)) : Prop where
  numbered : calls.map Call.level = List.range calls.length
  going : ∀ call ∈ calls.dropLast, call.cont = true
  chunked : Keeps action → Chunked (volumeOf quote) minVolumePerLevel
    (unused used levels.flatten) (calls.map Call.quoteGroup)

/-- The groups of an action that keeps `cont` are cut right exactly if, in exact sums, every group
but the last is light enough for `aggVolume`. -/
theorem aggregateLevels_aggregated_iff (quote : Ptr → Quote) (used : Ptr → Bool)
    (minVolumePerLevel : ℤ) (action : QuoteGroupFunc σ Ptr) (s : σ) (levels : List (List Ptr))
    (minimum : minVolumePerLevel < 2 ^ 63)
    (volumes : ∀ q ∈ levels.flatten, 0 ≤ (quote q).volume ∧ (quote q).volume < 2 ^ 63) :
    Aggregated quote used minVolumePerLevel action levels
        (callsOf quote used minVolumePerLevel action s levels) ↔
      (Keeps action → Fits quote
        (chunks (volumeOf quote) minVolumePerLevel [] (unused used levels.flatten))) := by
  have volumes : ∀ q ∈ unused used levels.flatten,
      0 ≤ (quote q).volume ∧ (quote q).volume < 2 ^ 63 := fun q member =>
    volumes q (List.mem_of_mem_filter member)
  have same := cuts_eq_chunks_iff minimum [] (unused used levels.flatten) volumes (by simp)
    (by simp)
  have right : Chunked (volumeOf quote) minVolumePerLevel (unused used levels.flatten)
      (chunks (volumeOf quote) minVolumePerLevel [] (unused used levels.flatten)) :=
    chunks_chunked [] (unused used levels.flatten) (by simp) (fun positive => by simpa using positive)
  rw [total_nil] at same
  constructor
  · intro aggregated keeps
    have chunked := aggregated.chunked keeps
    rw [groups_eq_cuts keeps] at chunked
    by_cases positive : 0 < minVolumePerLevel
    · exact same.mp (chunked.unique positive right fun q member => (volumes q member).1)
    · have nonneg : ∀ q ∈ unused used levels.flatten, 0 ≤ volumeOf quote q :=
        fun q member => (volumes q member).1
      rw [chunks_single (not_lt.mp positive) nonneg]
      intro group member
      obtain ⟨q, here, rfl⟩ := List.mem_map.mp (List.mem_of_mem_dropLast member)
      simpa [volumeOf] using (volumes q here).2
  · intro fits
    obtain ⟨numbered, going⟩ := aggregateLevels_stops quote used minVolumePerLevel action s levels
    refine ⟨numbered, going, fun keeps => ?_⟩
    rw [groups_eq_cuts keeps, same.mpr (fits keeps)]
    exact right

theorem aggregateLevels_aggregated_threeGroups :
    Aggregated (Quote.of 1) (fun volume => volume == 3) 10 (fun calls _ _ cont => (calls + 1, cont))
      [[4, 7], [3, 9], [2], [5]]
      (callsOf (Quote.of 1) (fun volume => volume == 3) 10 (fun calls _ _ cont => (calls + 1, cont))
        0 [[4, 7], [3, 9], [2], [5]]) :=
  (aggregateLevels_aggregated_iff (Quote.of 1) (fun volume => volume == 3) 10
    (fun calls _ _ cont => (calls + 1, cont)) 0 [[4, 7], [3, 9], [2], [5]] (by decide)
    (by decide)).mpr fun _ => by
      show ∀ group ∈ [[4, 7], [9, 2]], total (volumeOf (Quote.of 1)) group < 2 ^ 63
      decide

theorem heavyGroup_goesOn :
    (callsOf (Quote.of 1) (fun _ => false) (6 * 10 ^ 18) (fun calls _ _ cont => (calls + 1, cont)) 0
        [[5 * 10 ^ 18, 5 * 10 ^ 18], [1]]).map Call.quoteGroup =
      [[5 * 10 ^ 18, 5 * 10 ^ 18, 1]] ∧
    ¬ Aggregated (Quote.of 1) (fun _ => false) (6 * 10 ^ 18) (fun calls _ _ cont => (calls + 1, cont))
      [[5 * 10 ^ 18, 5 * 10 ^ 18], [1]]
      (callsOf (Quote.of 1) (fun _ => false) (6 * 10 ^ 18) (fun calls _ _ cont => (calls + 1, cont)) 0
        [[5 * 10 ^ 18, 5 * 10 ^ 18], [1]]) := by
  refine ⟨by decide, fun aggregated => ?_⟩
  have short := (aggregated.chunked fun _ _ _ => rfl).short (by decide)
  revert short
  decide

end BookView

end SpotGridBot.Book
