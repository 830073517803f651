import SpotGridBot.Utils.RateGraph

namespace SpotGridBot.Utils
open Paths Fueled Relation Runs

namespace CurrentRateManager
open BidRateMap

def turn (map : BidRateMap) (fuel : ℕ) (cp : CurrencyPair) (ignoreList : CurrencyList) :
    Option CurrencyList × PathMap → CurrencyPair × ℚ → Option (Option CurrencyList × PathMap) :=
  tryEdge cp (ignoreList ++ [cp.baseCCY]) fun cp' pathMap =>
    searchPath map fuel cp' (ignoreList ++ [cp.baseCCY]) pathMap

inductive Searches (map : BidRateMap) : ℕ → CurrencyPair → CurrencyList → PathMap →
    CurrencyPair → CurrencyList → Prop
  | here {fuel : ℕ} {cp : CurrencyPair} {ignoreList : CurrencyList} {pathMap : PathMap}
      (valid : cp.Valid) (uncached : pathMap cp = none) (noRate : map.find cp = none) :
      Searches map (fuel + 1) cp ignoreList pathMap cp ignoreList
  | edge {fuel : ℕ} {cp cp' : CurrencyPair} {ignoreList ignoreList' : CurrencyList}
      {pathMap : PathMap} {seen rest : BidRateMap} {entry : CurrencyPair × ℚ}
      {found : Option CurrencyList × PathMap}
      (valid : cp.Valid) (uncached : pathMap cp = none) (noRate : map.find cp = none)
      (split : map = seen ++ entry :: rest)
      (follows : entry.1.baseCCY = cp.baseCCY ∧ entry.1.quoteCCY ∉ ignoreList ++ [cp.baseCCY])
      (before : seen.foldlM (turn map fuel cp ignoreList) (none, pathMap) = some found)
      (further : Searches map fuel ⟨entry.1.quoteCCY, cp.quoteCCY⟩ (ignoreList ++ [cp.baseCCY])
        found.2 cp' ignoreList') :
      Searches map (fuel + 1) cp ignoreList pathMap cp' ignoreList'

def Unobstructed (map : BidRateMap) (cp : CurrencyPair) (ignoreList : CurrencyList) : Prop :=
  ReachableAvoiding map ignoreList cp.baseCCY cp.quoteCCY →
    ∃ path, Shortest map.Direct cp.baseCCY cp.quoteCCY path ∧ ∀ ccy ∈ path, ccy ∉ ignoreList

def AllShortest (map : BidRateMap) (pathMap : PathMap) : Prop :=
  ∀ cp path, pathMap cp = some path → Shortest map.Direct cp.baseCCY cp.quoteCCY path

variable {map : BidRateMap} {cp cp' : CurrencyPair} {ignoreList ignoreList' : CurrencyList}
  {pathMap : PathMap} {fuel : ℕ} {result found : Option CurrencyList × PathMap}

theorem AllShortest.of_grows {before after : PathMap} (shortest : AllShortest map after)
    (grows : Grows before after) : AllShortest map before :=
  fun cp path cached => shortest cp path (grows cp path cached)

theorem AllShortest.insert (shortest : AllShortest map pathMap) {path : CurrencyList}
    (new : Shortest map.Direct cp.baseCCY cp.quoteCCY path) :
    AllShortest map (Function.update pathMap cp (some path)) := by
  intro key path' cached
  by_cases same : key = cp
  · subst same
    rw [Function.update_self] at cached
    exact Option.some.inj cached ▸ new
  · rw [Function.update_of_ne same] at cached
    exact shortest key path' cached

theorem grows_splice (cp : CurrencyPair) (found : Option CurrencyList × PathMap) :
    Grows found.2 (splice cp found).2 := by
  unfold splice
  cases found.1 with
  | none => exact fun _ _ => id
  | some best =>
      unfold addPath
      cases cached : found.2 cp with
      | some path => exact fun _ _ => id
      | none => exact grows_insert cached _

theorem shorter_le_left (tmp : CurrencyList) (bestSubPath : Option CurrencyList) :
    ∃ path, shorter (some tmp) bestSubPath = some path ∧ path.length ≤ tmp.length := by
  unfold shorter
  cases bestSubPath with
  | none => exact ⟨tmp, rfl, le_rfl⟩
  | some best =>
      by_cases less : tmp.length < best.length
      · exact ⟨tmp, if_pos less, le_rfl⟩
      · exact ⟨best, if_neg less, Nat.le_of_not_lt less⟩

theorem shorter_le_right (tmpSubPath : Option CurrencyList) (best : CurrencyList) :
    ∃ path, shorter tmpSubPath (some best) = some path ∧ path.length ≤ best.length := by
  unfold shorter
  cases tmpSubPath with
  | none => exact ⟨best, rfl, le_rfl⟩
  | some tmp =>
      by_cases less : tmp.length < best.length
      · exact ⟨tmp, if_pos less, Nat.le_of_lt less⟩
      · exact ⟨best, if_neg less, le_rfl⟩

structure Called (map : BidRateMap) (cp : CurrencyPair) (ignoreList : CurrencyList)
    (pathMap : PathMap) : Prop where
  sound : Sound map pathMap
  valid : cp.Valid
  differ : cp.baseCCY ≠ cp.quoteCCY
  new : cp.baseCCY ∉ ignoreList
  away : cp.quoteCCY ∉ ignoreList
  uncached : Uncached ignoreList cp.quoteCCY pathMap

namespace Called

theorem searched (called : Called map cp ignoreList pathMap) (keys : map.ValidKeys)
    (ran : searchPath map fuel cp ignoreList pathMap = some result) :
    Searched map cp ignoreList pathMap result :=
  searchPath_searched keys called.sound called.valid called.differ called.new called.uncached ran

theorem avoids (called : Called map cp ignoreList pathMap)
    (searched : Searched map cp ignoreList pathMap result) {path : CurrencyList}
    (returned : result.1 = some path) : ∀ ccy ∈ path, ccy ∉ ignoreList := by
  intro ccy member ignored
  have inner : ccy ≠ cp.quoteCCY := by
    rintro rfl
    exact called.away ignored
  have cached := searched.sound.closed cp path (searched.cached path returned) ccy member inner
  rw [searched.uncached ccy ignored] at cached
  exact absurd cached Bool.false_ne_true

theorem sub (called : Called map cp ignoreList pathMap) (keys : map.ValidKeys)
    (noRate : map.find cp = none) {entry : CurrencyPair × ℚ} (member : entry ∈ map)
    (follows : entry.1.baseCCY = cp.baseCCY ∧ entry.1.quoteCCY ∉ ignoreList ++ [cp.baseCCY])
    (sound : Sound map found.2)
    (uncached : Uncached (ignoreList ++ [cp.baseCCY]) cp.quoteCCY found.2) :
    Called map ⟨entry.1.quoteCCY, cp.quoteCCY⟩ (ignoreList ++ [cp.baseCCY]) found.2 where
  sound := sound
  valid := ⟨(keys entry member).2, called.valid.2⟩
  differ := neighbour_differs keys called.valid (by simp [noRate]) member follows.1
  new := follows.2
  away := by
    rw [List.mem_append, List.mem_singleton, not_or]
    exact ⟨called.away, called.differ.symm⟩
  uncached := uncached

theorem loop_keeps (called : Called map cp ignoreList pathMap) (keys : map.ValidKeys)
    (noRate : map.find cp = none) {part : BidRateMap} (within : part ⊆ map)
    {next : Option CurrencyList × PathMap}
    (ran : part.foldlM (turn map fuel cp ignoreList) found = some next)
    (sound : Sound map found.2)
    (uncached : Uncached (ignoreList ++ [cp.baseCCY]) cp.quoteCCY found.2) :
    Sound map next.2 ∧ Uncached (ignoreList ++ [cp.baseCCY]) cp.quoteCCY next.2 ∧
      Grows found.2 next.2 := by
  refine foldlM_rule (fun _ later => Sound map later.2 ∧
    Uncached (ignoreList ++ [cp.baseCCY]) cp.quoteCCY later.2 ∧ Grows found.2 later.2) ?_
    ⟨sound, uncached, fun _ _ => id⟩ ran
  rintro seen entry later next member ⟨sound, uncached, grows⟩ tried
  unfold turn tryEdge at tried
  split_ifs at tried with follows
  · obtain ⟨sub, searchRan, rfl⟩ := Option.map_eq_some_iff.mp tried
    have searched :=
      (called.sub keys noRate (within member) follows sound uncached).searched keys searchRan
    exact ⟨searched.sound, searched.uncached, fun cp path cached =>
      searched.grows cp path (grows cp path cached)⟩
  · obtain rfl := Option.some.inj tried
    exact ⟨sound, uncached, grows⟩

end Called

theorem searchPath_loop (valid : cp.Valid) (missing : pathMap cp = none)
    (noRate : map.find cp = none)
    (ran : searchPath map (fuel + 1) cp ignoreList pathMap = some result) :
    ∃ final, map.foldlM (turn map fuel cp ignoreList) (none, pathMap) = some final ∧
      splice cp final = result := by
  rw [searchPath, if_pos valid] at ran
  simp only [missing, noRate, Option.isSome_none, Bool.false_eq_true, if_false] at ran
  exact Option.map_eq_some_iff.mp ran

/-! ## What a search caches if it caches shortest paths only -/

theorem Searches.unobstructed (keys : map.ValidKeys)
    (searches : Searches map fuel cp ignoreList pathMap cp' ignoreList')
    (called : Called map cp ignoreList pathMap)
    (ran : searchPath map fuel cp ignoreList pathMap = some result)
    (shortest : AllShortest map result.2) : Unobstructed map cp' ignoreList' := by
  induction searches generalizing result with
  | here valid uncached noRate =>
      intro reachable
      have searched := called.searched keys ran
      obtain ⟨path, returned⟩ := Option.isSome_iff_exists.mp (searched.complete reachable)
      exact ⟨path, shortest _ path (searched.cached path returned),
        called.avoids searched returned⟩
  | edge valid missing noRate split follows before further ih =>
      obtain ⟨final, looped, rfl⟩ := searchPath_loop valid missing noRate ran
      have shortest := shortest.of_grows (grows_splice _ final)
      obtain ⟨next, tried, later⟩ := foldlM_split split before looped
      have uncached := called.uncached.push missing
      obtain ⟨within, tail⟩ := List.append_subset.mp fun entry member => split ▸ member
      obtain ⟨member, tail⟩ := List.cons_subset.mp tail
      obtain ⟨sound, uncached, -⟩ := called.loop_keeps keys noRate within before called.sound uncached
      have subCalled := called.sub keys noRate member follows sound uncached
      unfold turn tryEdge at tried
      rw [if_pos follows] at tried
      obtain ⟨sub, subRan, rfl⟩ := Option.map_eq_some_iff.mp tried
      have searched := subCalled.searched keys subRan
      obtain ⟨-, -, grows⟩ :=
        called.loop_keeps keys noRate tail later searched.sound searched.uncached
      exact ih subCalled subRan (shortest.of_grows grows)

/-! ## What it caches if it is unobstructed -/

def Least (cp : CurrencyPair) (map : BidRateMap) (ignoreList : CurrencyList) (seen : BidRateMap)
    (found : Option CurrencyList × PathMap) : Prop :=
  ∀ entry ∈ seen, entry.1.baseCCY = cp.baseCCY →
    ReachableAvoiding map ignoreList entry.1.quoteCCY cp.quoteCCY →
    ∃ path best, found.2 ⟨entry.1.quoteCCY, cp.quoteCCY⟩ = some path ∧ found.1 = some best ∧
      best.length ≤ path.length

theorem Least.follow {seen : BidRateMap} {entry : CurrencyPair × ℚ}
    (least : Least cp map ignoreList seen found)
    (searched : Searched map ⟨entry.1.quoteCCY, cp.quoteCCY⟩ ignoreList found.2 result) :
    Least cp map ignoreList (seen ++ [entry]) (shorter result.1 found.1, result.2) := by
  intro other member sameBase reachable
  cases List.mem_append.mp member with
  | inl before =>
      obtain ⟨path, best, cached, chosen, short⟩ := least other before sameBase reachable
      obtain ⟨best', chosen', short'⟩ := shorter_le_right result.1 best
      refine ⟨path, best', searched.grows _ path cached, ?_, Nat.le_trans short' short⟩
      rw [chosen]
      exact chosen'
  | inr here =>
      obtain rfl := List.mem_singleton.mp here
      obtain ⟨path, returned⟩ := Option.isSome_iff_exists.mp (searched.complete reachable)
      obtain ⟨best, chosen, short⟩ := shorter_le_left path found.1
      refine ⟨path, best, searched.cached path returned, ?_, short⟩
      rw [returned]
      exact chosen

theorem Least.skip {seen : BidRateMap} {entry : CurrencyPair × ℚ}
    (least : Least cp map ignoreList seen found)
    (skipped : ¬ (entry.1.baseCCY = cp.baseCCY ∧ entry.1.quoteCCY ∉ ignoreList)) :
    Least cp map ignoreList (seen ++ [entry]) found := by
  intro other member sameBase reachable
  cases List.mem_append.mp member with
  | inl before => exact least other before sameBase reachable
  | inr here =>
      obtain rfl := List.mem_singleton.mp here
      obtain ⟨path, simple, avoids⟩ := reachable
      exact absurd ⟨sameBase, avoids _ simple.head_mem⟩ skipped

theorem Called.shortest_splice (called : Called map cp ignoreList pathMap)
    (looped : Looped map cp (ignoreList ++ [cp.baseCCY]) pathMap map found)
    (least : Least cp map (ignoreList ++ [cp.baseCCY]) map found)
    (shortest : AllShortest map found.2) (unobstructed : Unobstructed map cp ignoreList) :
    AllShortest map (splice cp found).2 := by
  have searched := looped.searched called.differ called.new
  have avoids : ∀ path, (splice cp found).1 = some path → ∀ ccy ∈ path, ccy ∉ ignoreList :=
    fun _ => called.avoids searched
  have missing : found.2 cp = none := looped.uncached cp.baseCCY (by simp)
  have cached := searched.cached
  have simple := searched.sound.simple cp
  unfold splice at avoids cached simple ⊢
  cases chosen : found.1 with
  | none => simpa [chosen] using shortest
  | some best =>
      simp only [chosen, addPath, missing] at avoids cached simple ⊢
      have simple := simple _ (cached _ rfl)
      obtain ⟨path, least', outside⟩ := unobstructed ⟨_, simple, avoids _ rfl⟩
      obtain ⟨ccy, tail, rfl, ⟨entry, member, same⟩, rest, new⟩ := least'.1.uncons called.differ
      have tail_shortest := least'.tail ⟨entry, member, same⟩ rest
      have reachable : ReachableAvoiding map (ignoreList ++ [cp.baseCCY]) ccy cp.quoteCCY := by
        refine ⟨tail, rest, fun other later ignored => ?_⟩
        cases List.mem_append.mp ignored with
        | inl before => exact outside other (List.mem_cons_of_mem _ later) before
        | inr here => exact new (List.mem_singleton.mp here ▸ later)
      obtain ⟨sub, best', subCached, chosen', short⟩ :=
        least entry member (by rw [same]) (by rwa [same])
      rw [same] at subCached
      obtain rfl := Option.some.inj (chosen.symm.trans chosen')
      have sub_length := (shortest _ sub subCached).length_eq tail_shortest
      refine shortest.insert (least'.of_le simple ?_)
      rw [List.length_cons, List.length_cons]
      omega

structure Shortening (map : BidRateMap) (cp : CurrencyPair) (ignoreList : CurrencyList)
    (pathMap : PathMap) (seen : BidRateMap) (found : Option CurrencyList × PathMap) : Prop where
  looped : Looped map cp ignoreList pathMap seen found
  least : Least cp map ignoreList seen found
  shortest : AllShortest map found.2

theorem Shortening.turn (called : Called map cp ignoreList pathMap) (keys : map.ValidKeys)
    (noRate : map.find cp = none) {seen : BidRateMap} {entry : CurrencyPair × ℚ}
    {next : Option CurrencyList × PathMap} (member : entry ∈ map)
    (shortening : Shortening map cp (ignoreList ++ [cp.baseCCY]) pathMap seen found)
    (sub : ∀ result, entry.1.baseCCY = cp.baseCCY ∧
        entry.1.quoteCCY ∉ ignoreList ++ [cp.baseCCY] →
      Called map ⟨entry.1.quoteCCY, cp.quoteCCY⟩ (ignoreList ++ [cp.baseCCY]) found.2 →
      searchPath map fuel ⟨entry.1.quoteCCY, cp.quoteCCY⟩ (ignoreList ++ [cp.baseCCY]) found.2 =
        some result → AllShortest map result.2)
    (tried : turn map fuel cp ignoreList found entry = some next) :
    Shortening map cp (ignoreList ++ [cp.baseCCY]) pathMap (seen ++ [entry]) next := by
  obtain ⟨looped, least, shortest⟩ := shortening
  have subCalled := fun follows =>
    called.sub keys noRate member follows looped.sound looped.uncached
  have looped' := looped.step member
    (fun _ sameBase outside => (subCalled ⟨sameBase, outside⟩).searched keys) tried
  unfold CurrentRateManager.turn tryEdge at tried
  split_ifs at tried with follows
  · obtain ⟨result, subRan, rfl⟩ := Option.map_eq_some_iff.mp tried
    have searched := (subCalled follows).searched keys subRan
    exact ⟨looped', least.follow searched, sub result follows (subCalled follows) subRan⟩
  · obtain rfl := Option.some.inj tried
    exact ⟨looped', least.skip follows, shortest⟩

theorem AllShortest.searchPath (keys : map.ValidKeys) (called : Called map cp ignoreList pathMap)
    (shortest : AllShortest map pathMap)
    (unobstructed : ∀ cp' ignoreList', Searches map fuel cp ignoreList pathMap cp' ignoreList' →
      Unobstructed map cp' ignoreList')
    (ran : CurrentRateManager.searchPath map fuel cp ignoreList pathMap = some result) :
    AllShortest map result.2 := by
  induction fuel generalizing cp ignoreList pathMap result with
  | zero => contradiction
  | succ fuel ih =>
      cases missing : pathMap cp with
      | some path =>
          rw [CurrentRateManager.searchPath, if_pos called.valid] at ran
          simp only [missing] at ran
          obtain rfl := Option.some.inj ran
          exact shortest
      | none =>
          cases noRate : map.find cp with
          | some rate =>
              rw [CurrentRateManager.searchPath, if_pos called.valid] at ran
              simp only [missing, noRate, Option.isSome_some, if_true, addPath] at ran
              obtain rfl := Option.some.inj ran
              have edge := (find_isSome_iff keys called.valid).mp (by rw [noRate]; rfl)
              exact shortest.insert (.pair edge called.differ)
          | none =>
              obtain ⟨final, looped, rfl⟩ := searchPath_loop called.valid missing noRate ran
              have initial : Shortening map cp (ignoreList ++ [cp.baseCCY]) pathMap []
                  (none, pathMap) :=
                ⟨⟨called.sound, fun _ _ => id, called.uncached.push missing, by simp, by simp⟩,
                  by simp [Least], shortest⟩
              have loop := foldlM_prefix_rule
                (Shortening map cp (ignoreList ++ [cp.baseCCY]) pathMap)
                (fun seen entry rest found next split before shortening tried =>
                  shortening.turn called keys noRate (by simp [split])
                    (fun result follows subCalled subRan => ih subCalled shortening.shortest
                      (fun cp' ignoreList' further => unobstructed cp' ignoreList'
                        (.edge called.valid missing noRate split follows before further)) subRan)
                    tried)
                initial looped
              exact called.shortest_splice loop.looped loop.least loop.shortest
                (unobstructed cp ignoreList (.here called.valid missing noRate))

/-! ## The manager -/

section Manager
variable (m : CurrentRateManager)

def copyRate (restrictToCurrencies : Finset Currency) (snapshot : CurrentRateManager)
    (it : CurrencyPair × ℚ) : CurrentRateManager :=
  if restrictToCurrencies = ∅ ∨
      it.1.baseCCY ∈ restrictToCurrencies ∧ it.1.quoteCCY ∈ restrictToCurrencies then
    (snapshot.setBidRate it.1 it.2).2
  else snapshot

def makeSnapshot (restrictToCurrencies : Finset Currency) : CurrentRateManager :=
  m.bidRateMap.foldl (copyRate restrictToCurrencies) {}

def GetsShortest (cp : CurrencyPair) : Prop :=
  ∃ found, (∀ fuel, m.bidRateMap.length < fuel → ∃ m', m.getPath fuel cp = some (found, m')) ∧
    match found with
    | some path => Shortest m.Direct cp.baseCCY cp.quoteCCY path
    | none => ¬ ReflTransGen m.Direct cp.baseCCY cp.quoteCCY

def AnswersShortest : Prop :=
  ∀ cp, cp.Valid → cp.baseCCY ≠ cp.quoteCCY → (m.pathMap cp).isSome → m.GetsShortest cp

def pathLength (cp : CurrencyPair) : Option ℕ :=
  (m.getPath (m.bidRateMap.length + 1) cp).bind fun answer => answer.1.map List.length

def Undiverted (cp : CurrencyPair) : Prop :=
  cp.baseCCY ∈ m.currencies → cp.quoteCCY ∈ m.currencies → ∀ cp' ignoreList,
    Searches m.bidRateMap (m.bidRateMap.length + 1) cp [] m.pathMap cp' ignoreList →
      Unobstructed m.bidRateMap cp' ignoreList

def NoShortcut (cp : CurrencyPair) : Prop :=
  ∀ cp' path first second, m.pathMap cp' = some path →
    SimplePath m.Direct cp'.baseCCY cp.baseCCY first →
    SimplePath m.Direct cp.quoteCCY cp'.quoteCCY second →
    path.length ≤ first.length + second.length

def KeepsShortest : Call → Prop
  | .setBidRate cp rate => rate > 0 ∧ cp.Valid → m.NoShortcut cp
  | .setAskRate cp rate => rate > 0 ∧ cp.reverse.Valid → m.NoShortcut cp.reverse
  | .getBidRate cp => cp.baseCCY ≠ cp.quoteCCY → m.Undiverted cp
  | .getAskRate cp => cp.reverse.baseCCY ≠ cp.reverse.quoteCCY → m.Undiverted cp.reverse

end Manager

variable {m m' : CurrentRateManager}

theorem Searches.start (searches : Searches map fuel cp ignoreList pathMap cp' ignoreList') :
    cp.Valid ∧ pathMap cp = none ∧ map.find cp = none := by
  cases searches with
  | here valid uncached noRate => exact ⟨valid, uncached, noRate⟩
  | edge valid uncached noRate => exact ⟨valid, uncached, noRate⟩

theorem Consistent.called (consistent : m.Consistent) (valid : cp.Valid)
    (differ : cp.baseCCY ≠ cp.quoteCCY) : Called m.bidRateMap cp [] m.pathMap where
  sound := consistent.sound
  valid := valid
  differ := differ
  new := List.not_mem_nil
  away := List.not_mem_nil
  uncached := by simp [Uncached]

theorem Consistent.getPath_allShortest (consistent : m.Consistent)
    (shortest : AllShortest m.bidRateMap m.pathMap) (valid : cp.Valid)
    (differ : cp.baseCCY ≠ cp.quoteCCY) {found : Option CurrencyList}
    (ran : m.getPath (m.bidRateMap.length + 1) cp = some (found, m')) :
    AllShortest m'.bidRateMap m'.pathMap ↔ m.Undiverted cp := by
  have called := consistent.called valid differ
  unfold CurrentRateManager.getPath at ran
  split_ifs at ran with unknown
  · obtain ⟨rfl, rfl⟩ := Prod.mk.inj (Option.some.inj ran)
    refine iff_of_true shortest fun base quote => ?_
    exact absurd unknown (not_or.mpr ⟨not_not.mpr base, not_not.mpr quote⟩)
  · obtain ⟨result, searchRan, same⟩ := Option.map_eq_some_iff.mp ran
    obtain ⟨rfl, rfl⟩ := Prod.mk.inj same
    rw [not_or, not_not, not_not] at unknown
    constructor
    · intro still _ _ cp' ignoreList searches
      exact searches.unobstructed consistent.keys called searchRan still
    · intro undiverted
      exact shortest.searchPath consistent.keys called (undiverted unknown.1 unknown.2) searchRan

theorem Consistent.afterQuery_allShortest (consistent : m.Consistent)
    (shortest : AllShortest m.bidRateMap m.pathMap) (cp : CurrencyPair) :
    AllShortest (m.afterQuery cp).bidRateMap (m.afterQuery cp).pathMap ↔
      (cp.baseCCY ≠ cp.quoteCCY → m.Undiverted cp) := by
  unfold afterQuery
  split_ifs with searches
  · obtain ⟨valid, differ, -⟩ := searches
    obtain ⟨⟨found, m'⟩, returns⟩ := m.getPath_returns cp
    have ran := returns _ (Nat.lt_succ_self _)
    rw [ran]
    exact (consistent.getPath_allShortest shortest valid differ ran).trans
      ⟨fun undiverted _ => undiverted, fun undiverted => undiverted differ⟩
  · refine iff_of_true shortest fun differ _ _ cp' ignoreList further => ?_
    obtain ⟨valid, -, noRate⟩ := further.start
    exact absurd ⟨valid, differ, noRate⟩ searches

theorem Consistent.setBidRate_allShortest (consistent : m.Consistent)
    (shortest : AllShortest m.bidRateMap m.pathMap) (cp : CurrencyPair) (rate : ℚ) :
    AllShortest (m.setBidRate cp rate).2.bidRateMap (m.setBidRate cp rate).2.pathMap ↔
      (rate > 0 ∧ cp.Valid → m.NoShortcut cp) := by
  by_cases accepted : rate > 0 ∧ cp.Valid
  · have direct : (m.setBidRate cp rate).2.bidRateMap.Direct = fun base quote =>
        m.Direct base quote ∨ base = cp.baseCCY ∧ quote = cp.quoteCCY := by
      funext base quote
      exact propext (consistent.direct_setBidRate accepted base quote)
    rw [pathMap_setBidRate, forall_prop_of_true accepted]
    unfold AllShortest NoShortcut
    rw [direct]
    constructor
    · intro still cp' path first second cached
      exact (shortest cp' path cached).iff_no_shortcut.mp (still cp' path cached) first second
    · intro noShortcut cp' path cached
      exact (shortest cp' path cached).iff_no_shortcut.mpr fun first second =>
        noShortcut cp' path first second cached
  · have same : (m.setBidRate cp rate).2 = m := by
      unfold CurrentRateManager.setBidRate
      rw [if_neg accepted]
    rw [same]
    exact iff_of_true shortest fun accepted' => absurd accepted' accepted

theorem Consistent.setAskRate_allShortest (consistent : m.Consistent)
    (shortest : AllShortest m.bidRateMap m.pathMap) (cp : CurrencyPair) (rate : ℚ) :
    AllShortest (m.setAskRate cp rate).2.bidRateMap (m.setAskRate cp rate).2.pathMap ↔
      (rate > 0 ∧ cp.reverse.Valid → m.NoShortcut cp.reverse) := by
  unfold CurrentRateManager.setAskRate
  split_ifs with positive
  · rw [consistent.setBidRate_allShortest shortest]
    simp [positive]
  · exact iff_of_true shortest fun accepted => absurd accepted.1 positive

theorem Consistent.step_allShortest (consistent : m.Consistent)
    (shortest : AllShortest m.bidRateMap m.pathMap) (call : Call) :
    AllShortest (m.step call).bidRateMap (m.step call).pathMap ↔ m.KeepsShortest call := by
  cases call with
  | setBidRate cp rate => exact consistent.setBidRate_allShortest shortest cp rate
  | setAskRate cp rate => exact consistent.setAskRate_allShortest shortest cp rate
  | getBidRate cp =>
      rw [(consistent.step_getBidRate cp).1]
      exact consistent.afterQuery_allShortest shortest cp
  | getAskRate cp =>
      rw [consistent.step_getAskRate cp]
      exact consistent.afterQuery_allShortest shortest cp.reverse

/-! ## What `GetPath` answers -/

theorem Consistent.getsShortest (consistent : m.Consistent)
    (shortest : AllShortest m.bidRateMap m.pathMap) (valid : cp.Valid)
    (differ : cp.baseCCY ≠ cp.quoteCCY) (undiverted : m.Undiverted cp) : m.GetsShortest cp := by
  obtain ⟨⟨found, m'⟩, returns⟩ := m.getPath_returns cp
  have ran := returns _ (Nat.lt_succ_self _)
  have after := (consistent.getPath_allShortest shortest valid differ ran).mpr undiverted
  obtain ⟨-, sameRates, cached, complete⟩ := consistent.getPath valid differ ran
  refine ⟨found, fun fuel enough => ⟨m', returns fuel enough⟩, ?_⟩
  cases found with
  | none => exact fun reaches => absurd (complete reaches) Bool.false_ne_true
  | some path =>
      have least := after cp path (cached path rfl).2
      rwa [sameRates] at least

theorem GetsShortest.length_eq (gets : m.GetsShortest cp) (gets' : m'.GetsShortest cp)
    (same : m'.Direct = m.Direct) : m.pathLength cp = m'.pathLength cp := by
  obtain ⟨found, returns, answer⟩ := gets
  obtain ⟨found', returns', answer'⟩ := gets'
  obtain ⟨_, ran⟩ := returns _ (Nat.lt_succ_self _)
  obtain ⟨_, ran'⟩ := returns' _ (Nat.lt_succ_self _)
  rw [same] at answer'
  unfold pathLength
  rw [ran, ran']
  cases found with
  | none =>
      cases found' with
      | none => rfl
      | some path' => exact absurd answer'.1.reaches answer
  | some path =>
      cases found' with
      | none => exact absurd answer.1.reaches answer'
      | some path' => exact congrArg some (answer.length_eq answer')

theorem Consistent.answersShortest_iff (consistent : m.Consistent) :
    m.AnswersShortest ↔ AllShortest m.bidRateMap m.pathMap := by
  constructor
  · intro answers cp path cached
    have simple := consistent.sound.simple cp path cached
    by_cases same : cp.baseCCY = cp.quoteCCY
    · rw [← same] at simple ⊢
      rw [simple.loop]
      exact .single _
    · have valid := consistent.valid_of_reaches same simple.reaches
      obtain ⟨base, quote⟩ := consistent.known_of_reaches same simple.reaches
      obtain ⟨found, returns, answer⟩ := answers cp valid same (by rw [cached]; rfl)
      obtain ⟨m', ran⟩ := returns _ (Nat.lt_succ_self _)
      have known : ¬ (cp.baseCCY ∉ m.currencies ∨ cp.quoteCCY ∉ m.currencies) := by
        simp [base, quote]
      rw [CurrentRateManager.getPath, if_neg known, CurrentRateManager.searchPath, if_pos valid] at ran
      simp only [cached, Option.map_some, Option.some.injEq, Prod.mk.injEq] at ran
      rw [← ran.1] at answer
      exact answer
  · intro shortest cp valid differ cached
    refine consistent.getsShortest shortest valid differ fun _ _ cp' ignoreList further => ?_
    rw [further.start.2.1] at cached
    exact absurd cached Bool.false_ne_true

/-! ## The snapshot -/

theorem Consistent.copyRates {snapshot : CurrentRateManager} (consistent : snapshot.Consistent)
    {entries : BidRateMap} (accepted : ∀ entry ∈ entries, entry.2 > 0 ∧ entry.1.Valid) :
    (entries.foldl (copyRate ∅) snapshot).Consistent ∧
      (entries.foldl (copyRate ∅) snapshot).pathMap = snapshot.pathMap ∧
      ∀ base quote, (entries.foldl (copyRate ∅) snapshot).Direct base quote ↔
        snapshot.Direct base quote ∨ entries.Direct base quote := by
  induction entries generalizing snapshot with
  | nil => exact ⟨consistent, rfl, by simp [BidRateMap.Direct]⟩
  | cons entry entries ih =>
      obtain ⟨first, later⟩ := List.forall_mem_cons.mp accepted
      have copied : copyRate ∅ snapshot entry = (snapshot.setBidRate entry.1 entry.2).2 :=
        if_pos (.inl rfl)
      obtain ⟨consistent', samePaths, direct⟩ := ih (consistent.setBidRate entry.1 entry.2) later
      rw [List.foldl_cons, copied]
      refine ⟨consistent', samePaths.trans (pathMap_setBidRate ..), fun base quote => ?_⟩
      rw [direct, consistent.direct_setBidRate first, or_assoc]
      refine or_congr_right ?_
      unfold BidRateMap.Direct
      rw [List.exists_mem_cons_iff]
      refine or_congr_left ⟨?_, ?_⟩
      · rintro ⟨rfl, rfl⟩
        rfl
      · intro same
        exact ⟨by rw [same], by rw [same]⟩

theorem Consistent.makeSnapshot (consistent : m.Consistent) :
    (m.makeSnapshot ∅).Consistent ∧ (m.makeSnapshot ∅).Direct = m.Direct ∧
      AllShortest (m.makeSnapshot ∅).bidRateMap (m.makeSnapshot ∅).pathMap := by
  have accepted : ∀ entry ∈ m.bidRateMap, entry.2 > 0 ∧ entry.1.Valid := fun entry member =>
    ⟨consistent.positive entry member, consistent.keys entry member⟩
  obtain ⟨consistent', noPaths, direct⟩ := consistent_empty.copyRates accepted
  refine ⟨consistent', ?_, ?_⟩
  · funext base quote
    have empty : ¬ Direct {} base quote := by simp [Direct, BidRateMap.Direct]
    exact propext ((direct base quote).trans (or_iff_right empty))
  · intro cp path cached
    rw [CurrentRateManager.makeSnapshot, noPaths] at cached
    cases cached

/-- The paths stay shortest ones exactly as long as no new rate is part of a shortcut and no search
is diverted, and then the history of the manager does not show. -/
theorem shortest_iff_undiverted (calls : List Call) :
    (Always step AnswersShortest {} calls ↔ Along step KeepsShortest {} calls) ∧
    (Along step KeepsShortest {} calls → ∀ cp, cp.Valid → cp.baseCCY ≠ cp.quoteCCY →
      (run step {} calls).Undiverted cp →
      (run step {} calls).GetsShortest cp ∧
      (((run step {} calls).makeSnapshot ∅).Undiverted cp →
        (run step {} calls).pathLength cp =
          ((run step {} calls).makeSnapshot ∅).pathLength cp)) := by
  let Inv (m : CurrentRateManager) := m.Consistent ∧ AllShortest m.bidRateMap m.pathMap
  have initial : Inv {} := ⟨consistent_empty, by simp [AllShortest]⟩
  have keep : ∀ (m : CurrentRateManager) call, Inv m → m.KeepsShortest call → Inv (m.step call) :=
    fun m call inv guard =>
      ⟨inv.1.step call, (inv.1.step_allShortest inv.2 call).mpr guard⟩
  constructor
  · refine always_iff_along (fun m call _ => keep m call)
      (fun m inv => inv.1.answersShortest_iff.mpr inv.2) ?_ initial
      (along_of_each (fun _ _ => trivial) _ _)
    intro m call _ inv unguarded answers
    have shortest := (inv.1.step call).answersShortest_iff.mp answers
    exact unguarded ((inv.1.step_allShortest inv.2 call).mp shortest)
  · intro guarded cp valid differ undiverted
    have inv : Inv (run step {} calls) :=
      (always_of_invariant (fun m call guard inv => keep m call inv guard) initial guarded).last
    have gets := inv.1.getsShortest inv.2 valid differ undiverted
    refine ⟨gets, fun undiverted' => ?_⟩
    obtain ⟨consistent, same, shortest⟩ := inv.1.makeSnapshot
    exact gets.length_eq (consistent.getsShortest shortest valid differ undiverted') same

def detour : List Call :=
  [.setBidRate ⟨⟨71⟩, ⟨72⟩⟩ 1, .setBidRate ⟨⟨71⟩, ⟨73⟩⟩ 1, .setBidRate ⟨⟨73⟩, ⟨78⟩⟩ 1,
    .setBidRate ⟨⟨72⟩, ⟨71⟩⟩ 1, .setBidRate ⟨⟨72⟩, ⟨74⟩⟩ 1, .setBidRate ⟨⟨74⟩, ⟨75⟩⟩ 1,
    .setBidRate ⟨⟨75⟩, ⟨76⟩⟩ 1, .setBidRate ⟨⟨76⟩, ⟨78⟩⟩ 1, .getBidRate ⟨⟨71⟩, ⟨78⟩⟩]

theorem detour_is_cached :
    ¬ ∀ calls cp, cp.Valid → cp.baseCCY ≠ cp.quoteCCY → GetsShortest (run step {} calls) cp := by
  intro all
  obtain ⟨found, returns, answer⟩ := all detour ⟨⟨72⟩, ⟨78⟩⟩ (by decide) (by decide)
  obtain ⟨m', ran⟩ := returns 9 (by decide +kernel)
  have path : ((run step {} detour).getPath 9 ⟨⟨72⟩, ⟨78⟩⟩).map Prod.fst =
      some (some [⟨72⟩, ⟨74⟩, ⟨75⟩, ⟨76⟩, ⟨78⟩]) := by decide +kernel
  rw [ran] at path
  obtain rfl := Option.some.inj path
  have edge : ∀ base quote : Currency,
      (run step {} detour).bidRateMap.any (fun entry => entry.1 = ⟨base, quote⟩) = true →
      (run step {} detour).Direct base quote := by
    intro base quote some
    simpa [Direct, BidRateMap.Direct] using some
  have shorter : SimplePath (run step {} detour).Direct ⟨72⟩ ⟨78⟩ [⟨72⟩, ⟨71⟩, ⟨73⟩, ⟨78⟩] := by
    refine .cons (edge _ _ ?_) (.cons (edge _ _ ?_) (.pair (edge _ _ ?_) ?_) ?_) ?_ <;>
      decide +kernel
  have least := answer.2 _ shorter
  simp at least

end CurrentRateManager

end SpotGridBot.Utils
