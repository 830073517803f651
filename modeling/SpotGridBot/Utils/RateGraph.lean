import SpotGridBot.Utils.CurrentRateManager
import SpotGridBot.Lib.Fueled
import SpotGridBot.Lib.Paths
import SpotGridBot.Lib.Runs

namespace SpotGridBot.Utils
open Paths Fueled Relation Runs

namespace BidRateMap
variable {map : BidRateMap} {cp : CurrencyPair}

def Direct (map : BidRateMap) (base quote : Currency) : Prop :=
  ∃ entry ∈ map, entry.1 = ⟨base, quote⟩

def ValidKeys (map : BidRateMap) : Prop := ∀ entry ∈ map, entry.1.Valid

theorem find_isSome_iff (keys : map.ValidKeys) (valid : cp.Valid) :
    (map.find cp).isSome ↔ map.Direct cp.baseCCY cp.quoteCCY := by
  unfold find Direct
  rw [Option.isSome_map, List.find?_isSome]
  constructor
  · rintro ⟨entry, member, same⟩
    exact ⟨entry, member, (CurrencyPair.equivalent_iff_eq (keys entry member) valid).mp same⟩
  · rintro ⟨entry, member, same⟩
    exact ⟨entry, member, (CurrencyPair.equivalent_iff_eq (keys entry member) valid).mpr same⟩

theorem Direct.valid (keys : map.ValidKeys) {base quote : Currency} (edge : map.Direct base quote) :
    base.Valid ∧ quote.Valid := by
  obtain ⟨entry, member, same⟩ := edge
  have valid := keys entry member
  rwa [same] at valid

theorem exists_of_mem_assign {rate : ℚ} {entry : CurrencyPair × ℚ}
    (member : entry ∈ map.assign cp rate) :
    ∃ entry' ∈ map, entry'.1 = entry.1 ∧ (entry.2 = rate ∨ entry = entry') := by
  obtain ⟨entry', member', rfl⟩ := List.mem_map.mp member
  refine ⟨entry', member', ?_⟩
  split_ifs with here
  · exact ⟨rfl, .inl rfl⟩
  · exact ⟨rfl, .inr rfl⟩

theorem direct_assign (rate : ℚ) (base quote : Currency) :
    (map.assign cp rate).Direct base quote ↔ map.Direct base quote := by
  constructor
  · rintro ⟨entry, member, same⟩
    obtain ⟨entry', member', sameKey, -⟩ := exists_of_mem_assign member
    exact ⟨entry', member', sameKey.trans same⟩
  · rintro ⟨entry, member, same⟩
    refine ⟨_, List.mem_map_of_mem member, ?_⟩
    split_ifs with here
    · exact same
    · exact same

theorem direct_insertBefore (p : CurrencyPair × ℚ → Bool) (rate : ℚ) (base quote : Currency) :
    Direct (Ordered.insertBefore p (cp, rate) map) base quote ↔
      map.Direct base quote ∨ base = cp.baseCCY ∧ quote = cp.quoteCCY := by
  constructor
  · rintro ⟨entry, member, same⟩
    cases Ordered.mem_insertBefore.mp member with
    | inl new =>
        subst new
        have pair : cp = ⟨base, quote⟩ := same
        exact .inr ⟨by rw [pair], by rw [pair]⟩
    | inr old => exact .inl ⟨entry, old, same⟩
  · rintro (⟨entry, member, same⟩ | ⟨rfl, rfl⟩)
    · exact ⟨entry, Ordered.mem_insertBefore.mpr (.inr member), same⟩
    · exact ⟨(cp, rate), Ordered.mem_insertBefore.mpr (.inl rfl), rfl⟩

end BidRateMap

namespace CurrentRateManager
open BidRateMap

variable {map : BidRateMap} {cp : CurrencyPair} {ignoreList : CurrencyList}
  {pathMap pathMap' : PathMap}

/-! ## The search returns -/

def remaining (map : BidRateMap) (ignoreList : CurrencyList) : ℕ :=
  map.countP fun entry => entry.1.baseCCY ∉ ignoreList

theorem remaining_lt {entry : CurrencyPair × ℚ} (member : entry ∈ map)
    (new : entry.1.baseCCY ∉ ignoreList) :
    remaining map (ignoreList ++ [entry.1.baseCCY]) < remaining map ignoreList := by
  apply countP_lt _ member
  · simp
  · simpa using new
  · intro other _ outside
    simp only [List.mem_append, decide_eq_true_eq, not_or] at outside ⊢
    exact outside.1

theorem searchPath_isSome (fuel : ℕ) (new : cp.baseCCY ∉ ignoreList)
    (enough : remaining map ignoreList < fuel) :
    (searchPath map fuel cp ignoreList pathMap).isSome := by
  induction fuel generalizing cp ignoreList pathMap with
  | zero => contradiction
  | succ fuel ih =>
      unfold searchPath
      by_cases valid : cp.Valid
      · rw [if_pos valid]
        cases pathMap cp with
        | some path => rfl
        | none =>
            by_cases direct : (map.find cp).isSome = true
            · simp only [direct, if_true, Option.isSome_some]
            · simp only [direct, Bool.false_eq_true, if_false, Option.isSome_map]
              apply foldlM_isSome
              intro found entry member
              unfold tryEdge
              split_ifs with follows
              · rw [Option.isSome_map]
                apply ih follows.2
                have less := remaining_lt member (follows.1 ▸ new)
                rw [follows.1] at less
                omega
              · rfl
      · rw [if_neg valid]
        rfl

theorem searchPath_mono {fuel : ℕ} {result : Option CurrencyList × PathMap}
    (ran : searchPath map fuel cp ignoreList pathMap = some result) :
    searchPath map (fuel + 1) cp ignoreList pathMap = some result := by
  induction fuel generalizing cp ignoreList pathMap result with
  | zero => contradiction
  | succ fuel ih =>
      rw [searchPath] at ran ⊢
      by_cases valid : cp.Valid
      · rw [if_pos valid] at ran ⊢
        cases cached : pathMap cp with
        | some path => simpa only [cached] using ran
        | none =>
            simp only [cached] at ran ⊢
            by_cases direct : (map.find cp).isSome = true
            · rwa [if_pos direct] at ran ⊢
            · rw [if_neg direct] at ran ⊢
              obtain ⟨found, looped, finished⟩ := Option.map_eq_some_iff.mp ran
              refine Option.map_eq_some_iff.mpr ⟨found, foldlM_mono ?_ looped, finished⟩
              intro found entry next tried
              unfold tryEdge at tried ⊢
              split_ifs at tried ⊢ with follows
              · obtain ⟨sub, searched, better⟩ := Option.map_eq_some_iff.mp tried
                exact Option.map_eq_some_iff.mpr ⟨sub, ih searched, better⟩
              · exact tried
      · rwa [if_neg valid] at ran ⊢

/-! ## What a search finds -/

structure Sound (map : BidRateMap) (pathMap : PathMap) : Prop where
  simple : ∀ cp path, pathMap cp = some path →
    SimplePath map.Direct cp.baseCCY cp.quoteCCY path
  closed : ∀ cp path, pathMap cp = some path → ∀ ccy ∈ path, ccy ≠ cp.quoteCCY →
    (pathMap ⟨ccy, cp.quoteCCY⟩).isSome

def Grows (before after : PathMap) : Prop := ∀ cp path, before cp = some path → after cp = some path

def Uncached (ignoreList : CurrencyList) (quote : Currency) (pathMap : PathMap) : Prop :=
  ∀ ccy ∈ ignoreList, pathMap ⟨ccy, quote⟩ = none

def ReachableAvoiding (map : BidRateMap) (ignoreList : CurrencyList) (base quote : Currency) :
    Prop :=
  ∃ path, SimplePath map.Direct base quote path ∧ ∀ ccy ∈ path, ccy ∉ ignoreList

theorem Sound.insert (sound : Sound map pathMap) {path : CurrencyList}
    (simple : SimplePath map.Direct cp.baseCCY cp.quoteCCY path)
    (closed : ∀ ccy ∈ path, ccy ≠ cp.quoteCCY →
      ccy = cp.baseCCY ∨ (pathMap ⟨ccy, cp.quoteCCY⟩).isSome) :
    Sound map (Function.update pathMap cp (some path)) := by
  have kept : ∀ key, (pathMap key).isSome →
      (Function.update pathMap cp (some path) key).isSome := by
    intro key cached
    by_cases same : key = cp
    · rw [same, Function.update_self]
      rfl
    · rwa [Function.update_of_ne same]
  constructor
  · intro key path' cached
    by_cases same : key = cp
    · subst same
      rw [Function.update_self] at cached
      exact Option.some.inj cached ▸ simple
    · rw [Function.update_of_ne same] at cached
      exact sound.simple key path' cached
  · intro key path' cached ccy member inner
    by_cases same : key = cp
    · subst same
      rw [Function.update_self] at cached
      rw [← Option.some.inj cached] at member
      cases closed ccy member inner with
      | inl here =>
          subst here
          rw [Function.update_self]
          rfl
      | inr cached => exact kept _ cached
    · rw [Function.update_of_ne same] at cached
      exact kept _ (sound.closed key path' cached ccy member inner)

theorem Uncached.insert (uncached : Uncached ignoreList cp.quoteCCY pathMap)
    (new : cp.baseCCY ∉ ignoreList) (path : CurrencyList) :
    Uncached ignoreList cp.quoteCCY (Function.update pathMap cp (some path)) := by
  intro ccy ignored
  rw [Function.update_of_ne, uncached ccy ignored]
  intro same
  apply new
  rwa [← same]

theorem Uncached.push (uncached : Uncached ignoreList cp.quoteCCY pathMap)
    (missing : pathMap cp = none) :
    Uncached (ignoreList ++ [cp.baseCCY]) cp.quoteCCY pathMap := by
  intro ccy ignored
  cases List.mem_append.mp ignored with
  | inl before => exact uncached ccy before
  | inr here => rw [List.mem_singleton.mp here, missing]

theorem neighbour_differs (keys : map.ValidKeys) (valid : cp.Valid)
    (noRate : ¬ (map.find cp).isSome = true) {entry : CurrencyPair × ℚ} (member : entry ∈ map)
    (sameBase : entry.1.baseCCY = cp.baseCCY) : entry.1.quoteCCY ≠ cp.quoteCCY := by
  intro same
  exact noRate ((find_isSome_iff keys valid).mpr ⟨entry, member, by rw [← sameBase, ← same]⟩)

theorem grows_insert (missing : pathMap cp = none) (path : CurrencyList) :
    Grows pathMap (Function.update pathMap cp (some path)) := by
  intro key path' cached
  rw [Function.update_of_ne, cached]
  intro same
  rw [same, missing] at cached
  contradiction

structure Searched (map : BidRateMap) (cp : CurrencyPair) (ignoreList : CurrencyList)
    (pathMap : PathMap) (result : Option CurrencyList × PathMap) : Prop where
  sound : Sound map result.2
  grows : Grows pathMap result.2
  uncached : Uncached ignoreList cp.quoteCCY result.2
  cached : ∀ path, result.1 = some path → result.2 cp = some path
  complete : ReachableAvoiding map ignoreList cp.baseCCY cp.quoteCCY → result.1.isSome

structure Looped (map : BidRateMap) (cp : CurrencyPair) (ignoreList : CurrencyList)
    (pathMap : PathMap) (seen : BidRateMap) (found : Option CurrencyList × PathMap) : Prop where
  sound : Sound map found.2
  grows : Grows pathMap found.2
  uncached : Uncached ignoreList cp.quoteCCY found.2
  best : ∀ path, found.1 = some path →
    ∃ ccy, map.Direct cp.baseCCY ccy ∧ found.2 ⟨ccy, cp.quoteCCY⟩ = some path
  complete : ∀ entry ∈ seen, entry.1.baseCCY = cp.baseCCY →
    ReachableAvoiding map ignoreList entry.1.quoteCCY cp.quoteCCY → found.1.isSome

theorem shorter_eq (tmpSubPath bestSubPath : Option CurrencyList) :
    shorter tmpSubPath bestSubPath = tmpSubPath ∧ tmpSubPath.isSome ∨
    shorter tmpSubPath bestSubPath = bestSubPath ∧
      (tmpSubPath.isSome → bestSubPath.isSome) := by
  unfold shorter
  cases tmpSubPath with
  | none => exact .inr ⟨rfl, fun some => absurd some Bool.false_ne_true⟩
  | some tmp =>
      cases bestSubPath with
      | none => exact .inl ⟨rfl, rfl⟩
      | some best =>
          by_cases less : tmp.length < best.length
          · exact .inl ⟨if_pos less, rfl⟩
          · exact .inr ⟨if_neg less, fun _ => rfl⟩

theorem Looped.step {search : CurrencyPair → PathMap → Option (Option CurrencyList × PathMap)}
    {seen : BidRateMap} {entry : CurrencyPair × ℚ} {found next : Option CurrencyList × PathMap}
    (member : entry ∈ map)
    (searched : ∀ result, entry.1.baseCCY = cp.baseCCY → entry.1.quoteCCY ∉ ignoreList →
      search ⟨entry.1.quoteCCY, cp.quoteCCY⟩ found.2 = some result →
      Searched map ⟨entry.1.quoteCCY, cp.quoteCCY⟩ ignoreList found.2 result)
    (looped : Looped map cp ignoreList pathMap seen found)
    (tried : tryEdge cp ignoreList search found entry = some next) :
    Looped map cp ignoreList pathMap (seen ++ [entry]) next := by
  unfold tryEdge at tried
  split_ifs at tried with follows
  · obtain ⟨result, ran, rfl⟩ := Option.map_eq_some_iff.mp tried
    have sub := searched result follows.1 follows.2 ran
    have edge : map.Direct cp.baseCCY entry.1.quoteCCY := ⟨entry, member, by rw [← follows.1]⟩
    refine ⟨sub.sound, fun cp path cached => sub.grows cp path (looped.grows cp path cached),
      sub.uncached, ?_, ?_⟩
    · intro path chosen
      cases shorter_eq result.1 found.1 with
      | inl tmp => exact ⟨_, edge, sub.cached path (tmp.1 ▸ chosen)⟩
      | inr best =>
          obtain ⟨ccy, edge, cached⟩ := looped.best path (best.1 ▸ chosen)
          exact ⟨ccy, edge, sub.grows _ _ cached⟩
    · intro other seen' sameBase reachable
      cases shorter_eq result.1 found.1 with
      | inl tmp => exact tmp.1.symm ▸ tmp.2
      | inr best =>
          simp only [best.1]
          cases List.mem_append.mp seen' with
          | inl before => exact looped.complete other before sameBase reachable
          | inr here =>
              obtain rfl := List.mem_singleton.mp here
              exact best.2 (sub.complete reachable)
  · obtain rfl := Option.some.inj tried
    refine ⟨looped.sound, looped.grows, looped.uncached, looped.best, ?_⟩
    intro other seen' sameBase reachable
    cases List.mem_append.mp seen' with
    | inl before => exact looped.complete other before sameBase reachable
    | inr here =>
        obtain rfl := List.mem_singleton.mp here
        obtain ⟨path, simple, avoids⟩ := reachable
        exact absurd ⟨sameBase, avoids _ simple.head_mem⟩ follows

theorem Looped.searched {found : Option CurrencyList × PathMap}
    (looped : Looped map cp (ignoreList ++ [cp.baseCCY]) pathMap map found)
    (differ : cp.baseCCY ≠ cp.quoteCCY) (new : cp.baseCCY ∉ ignoreList) :
    Searched map cp ignoreList pathMap (splice cp found) := by
  have missing : found.2 cp = none := looped.uncached cp.baseCCY (by simp)
  have kept : Uncached ignoreList cp.quoteCCY found.2 := fun ccy ignored =>
    looped.uncached ccy (List.mem_append_left _ ignored)
  have complete : ReachableAvoiding map ignoreList cp.baseCCY cp.quoteCCY → found.1.isSome := by
    rintro ⟨path, simple, avoids⟩
    obtain ⟨ccy, tail, rfl, ⟨entry, member, same⟩, rest, new'⟩ := simple.uncons differ
    refine looped.complete entry member (by rw [same]) ⟨tail, by rwa [same], ?_⟩
    intro ccy later ignored
    cases List.mem_append.mp ignored with
    | inl before => exact avoids ccy (List.mem_cons_of_mem _ later) before
    | inr here => exact new' (List.mem_singleton.mp here ▸ later)
  unfold splice
  cases chosen : found.1 with
  | none =>
      refine ⟨looped.sound, looped.grows, kept, by simp, fun reachable => ?_⟩
      have reached := complete reachable
      rwa [chosen] at reached
  | some best =>
      simp only [addPath, missing]
      obtain ⟨ccy, edge, cached⟩ := looped.best best chosen
      have simple := looped.sound.simple _ best cached
      have newToPath : cp.baseCCY ∉ best := by
        intro member
        have cycle := looped.sound.closed _ best cached cp.baseCCY member differ
        rw [looped.uncached cp.baseCCY (by simp)] at cycle
        contradiction
      refine ⟨looped.sound.insert (.cons edge simple newToPath) ?_, ?_, kept.insert new _, ?_,
        fun _ => rfl⟩
      · intro other member inner
        cases List.mem_cons.mp member with
        | inl here => exact .inl here
        | inr later => exact .inr (looped.sound.closed _ best cached other later inner)
      · intro key path cached'
        exact grows_insert missing _ key path (looped.grows key path cached')
      · intro path same
        exact (Function.update_self ..).trans same

theorem searchPath_searched (keys : map.ValidKeys) {fuel : ℕ}
    {result : Option CurrencyList × PathMap} (sound : Sound map pathMap) (valid : cp.Valid)
    (differ : cp.baseCCY ≠ cp.quoteCCY) (new : cp.baseCCY ∉ ignoreList)
    (uncached : Uncached ignoreList cp.quoteCCY pathMap)
    (ran : searchPath map fuel cp ignoreList pathMap = some result) :
    Searched map cp ignoreList pathMap result := by
  induction fuel generalizing cp ignoreList pathMap result with
  | zero => contradiction
  | succ fuel ih =>
      rw [searchPath, if_pos valid] at ran
      cases cached : pathMap cp with
      | some path =>
          simp only [cached] at ran
          obtain rfl := Option.some.inj ran
          exact ⟨sound, fun _ _ => id, uncached, fun path' same => same ▸ cached, fun _ => rfl⟩
      | none =>
          simp only [cached] at ran
          by_cases direct : (map.find cp).isSome = true
          · rw [if_pos direct] at ran
            simp only [addPath, cached] at ran
            obtain rfl := Option.some.inj ran
            have edge := (find_isSome_iff keys valid).mp direct
            refine ⟨sound.insert (.pair edge differ) ?_, grows_insert cached _,
              uncached.insert new _, ?_, fun _ => rfl⟩
            · intro ccy member inner
              simp only [List.mem_cons, List.not_mem_nil, or_false] at member
              exact .inl (member.resolve_right inner)
            · intro path same
              exact (Function.update_self ..).trans same
          · rw [if_neg direct] at ran
            obtain ⟨found, folded, finished⟩ := Option.map_eq_some_iff.mp ran
            have looped : Looped map cp (ignoreList ++ [cp.baseCCY]) pathMap map found := by
              refine foldlM_rule (Looped map cp (ignoreList ++ [cp.baseCCY]) pathMap) ?_
                ⟨sound, fun _ _ => id, uncached.push cached, by simp, by simp⟩ folded
              intro seen entry found next member looped tried
              refine looped.step member ?_ tried
              intro result sameBase outside searched
              exact ih looped.sound ⟨(keys entry member).2, valid.2⟩
                (neighbour_differs keys valid direct member sameBase) outside looped.uncached
                searched
            exact finished ▸ looped.searched differ new

/-! ## The manager -/

def Direct (m : CurrentRateManager) : Currency → Currency → Prop := m.bidRateMap.Direct

def directRate (m : CurrentRateManager) (base quote : Currency) : ℚ :=
  (m.getDirectBidRate ⟨base, quote⟩).getD 0

structure Consistent (m : CurrentRateManager) : Prop where
  keys : m.bidRateMap.ValidKeys
  positive : ∀ entry ∈ m.bidRateMap, 0 < entry.2
  known : ∀ entry ∈ m.bidRateMap,
    entry.1.baseCCY ∈ m.currencies ∧ entry.1.quoteCCY ∈ m.currencies
  sound : Sound m.bidRateMap m.pathMap

variable {m : CurrentRateManager} {fuel : ℕ}

theorem getPath_isSome (m : CurrentRateManager) (cp : CurrencyPair)
    (enough : m.bidRateMap.length < fuel) : (m.getPath fuel cp).isSome := by
  unfold getPath
  split_ifs with unknown
  · rfl
  · rw [Option.isSome_map]
    apply searchPath_isSome fuel List.not_mem_nil
    exact Nat.lt_of_le_of_lt List.countP_le_length enough

theorem getPath_returns (m : CurrentRateManager) (cp : CurrencyPair) :
    ∃ result, ∀ fuel, m.bidRateMap.length < fuel → m.getPath fuel cp = some result := by
  obtain ⟨result, returns⟩ := Option.isSome_iff_exists.mp
    (getPath_isSome m cp (Nat.lt_succ_self m.bidRateMap.length))
  refine ⟨result, fun fuel enough => ?_⟩
  induction fuel, enough using Nat.le_induction with
  | base => exact returns
  | succ fuel _ ih =>
      unfold getPath at ih ⊢
      split_ifs at ih ⊢ with unknown
      · exact ih
      · obtain ⟨found, ran, same⟩ := Option.map_eq_some_iff.mp ih
        exact Option.map_eq_some_iff.mpr ⟨found, searchPath_mono ran, same⟩

theorem Consistent.known_of_reaches (consistent : m.Consistent) {base quote : Currency}
    (differ : base ≠ quote) (reaches : ReflTransGen m.Direct base quote) :
    base ∈ m.currencies ∧ quote ∈ m.currencies := by
  constructor
  · obtain ⟨ccy, ⟨entry, member, same⟩, -⟩ := (ReflTransGen.cases_head reaches).resolve_left differ
    have known := (consistent.known entry member).1
    rwa [same] at known
  · obtain ⟨ccy, -, ⟨entry, member, same⟩⟩ :=
      (ReflTransGen.cases_tail reaches).resolve_left (Ne.symm differ)
    have known := (consistent.known entry member).2
    rwa [same] at known

theorem Consistent.valid_of_reaches (consistent : m.Consistent) (differ : cp.baseCCY ≠ cp.quoteCCY)
    (reaches : ReflTransGen m.Direct cp.baseCCY cp.quoteCCY) : cp.Valid := by
  obtain ⟨_, first, -⟩ := (ReflTransGen.cases_head reaches).resolve_left differ
  obtain ⟨_, -, last⟩ := (ReflTransGen.cases_tail reaches).resolve_left differ.symm
  exact ⟨(first.valid consistent.keys).1, (last.valid consistent.keys).2⟩

theorem Consistent.getPath (consistent : m.Consistent) (valid : cp.Valid)
    (differ : cp.baseCCY ≠ cp.quoteCCY) {found : Option CurrencyList} {m' : CurrentRateManager}
    (ran : m.getPath fuel cp = some (found, m')) :
    m'.Consistent ∧ m'.bidRateMap = m.bidRateMap ∧
    (∀ path, found = some path → SimplePath m.Direct cp.baseCCY cp.quoteCCY path ∧
      m'.pathMap cp = some path) ∧
    (ReflTransGen m.Direct cp.baseCCY cp.quoteCCY → found.isSome) := by
  unfold CurrentRateManager.getPath at ran
  split_ifs at ran with unknown
  · obtain ⟨rfl, rfl⟩ := Prod.mk.inj (Option.some.inj ran)
    refine ⟨consistent, rfl, by simp, fun reaches => ?_⟩
    obtain ⟨base, quote⟩ := consistent.known_of_reaches differ reaches
    exact absurd unknown (not_or.mpr ⟨not_not.mpr base, not_not.mpr quote⟩)
  · obtain ⟨result, searchRan, same⟩ := Option.map_eq_some_iff.mp ran
    obtain ⟨rfl, rfl⟩ := Prod.mk.inj same
    have searched := searchPath_searched consistent.keys consistent.sound valid differ
      List.not_mem_nil (by simp [Uncached]) searchRan
    refine ⟨⟨consistent.keys, consistent.positive, consistent.known, searched.sound⟩, rfl, ?_, ?_⟩
    · intro path found
      have cached := searched.cached path found
      exact ⟨searched.sound.simple cp path cached, cached⟩
    · intro reaches
      obtain ⟨path, simple⟩ := SimplePath.of_reaches reaches
      exact searched.complete ⟨path, simple, by simp⟩

/-! ## The product along a path -/

theorem Consistent.directRate (consistent : m.Consistent) {base quote : Currency}
    (edge : m.Direct base quote) :
    m.getDirectBidRate ⟨base, quote⟩ = some (m.directRate base quote) ∧
      0 < m.directRate base quote := by
  obtain ⟨validBase, validQuote⟩ := edge.valid consistent.keys
  have valid : CurrencyPair.Valid ⟨base, quote⟩ := ⟨validBase, validQuote⟩
  have found := (find_isSome_iff consistent.keys valid).mpr edge
  obtain ⟨rate, found⟩ := Option.isSome_iff_exists.mp found
  have same : m.directRate base quote = rate := by
    unfold CurrentRateManager.directRate getDirectBidRate
    rw [found, Option.getD_some]
  refine ⟨found.trans (by rw [same]), ?_⟩
  obtain ⟨entry, here, rfl⟩ := Option.map_eq_some_iff.mp found
  rw [same]
  exact consistent.positive entry (List.mem_of_find?_eq_some here)

theorem Consistent.getBidRate_direct (consistent : m.Consistent) {base quote : Currency}
    (edge : m.Direct base quote) (differ : base ≠ quote) (fuel : ℕ) :
    getBidRate (fuel + 1) ⟨base, quote⟩ m = some (m.directRate base quote, m) := by
  have valid : CurrencyPair.Valid ⟨base, quote⟩ := edge.valid consistent.keys
  unfold getBidRate
  rw [if_pos valid, if_neg differ, (consistent.directRate edge).1]

theorem Consistent.multiply (consistent : m.Consistent) {base quote : Currency}
    {tail : CurrencyList} (simple : SimplePath m.Direct base quote (base :: tail))
    (valid : base.Valid) (rate : ℚ) (fuel : ℕ) :
    tail.foldlM (CurrentRateManager.multiply (getBidRate (fuel + 1))) ((rate, base), m) =
      some ((rate * weight m.directRate (base :: tail), quote), m) := by
  induction tail generalizing base rate with
  | nil =>
      cases simple with
      | single => simp [weight]
      | cons edge rest new => cases rest
  | cons ccy tail ih =>
      have here : base ≠ Currency.invalid := valid.2
      cases simple with
      | cons edge rest new =>
          obtain ⟨tail', same⟩ := rest.exists_tail
          obtain ⟨rfl, rfl⟩ := List.cons.inj same
          have differ : base ≠ ccy := fun same => new (same ▸ List.mem_cons_self)
          have direct := consistent.getBidRate_direct edge differ fuel
          rw [List.foldlM_cons]
          simp only [CurrentRateManager.multiply, here, ne_eq, not_false_eq_true, if_true, direct,
            Option.map_some, Option.bind_eq_bind, Option.bind_some]
          rw [ih rest (edge.valid consistent.keys).2, weight, mul_assoc]

theorem Consistent.getBidRate_path {m' : CurrentRateManager} (consistent' : m'.Consistent)
    (sameRates : m'.bidRateMap = m.bidRateMap) (valid : cp.Valid)
    (differ : cp.baseCCY ≠ cp.quoteCCY) (noRate : m.getDirectBidRate cp = none)
    {path : CurrencyList} (simple : SimplePath m.Direct cp.baseCCY cp.quoteCCY path)
    (searched : m.getPath (fuel + 1) cp = some (some path, m')) :
    getBidRate (fuel + 1 + 1) cp m = some (weight m.directRate path, m') := by
  obtain ⟨tail, rfl⟩ := simple.exists_tail
  have sameDirect : m'.Direct = m.Direct := by
    unfold CurrentRateManager.Direct
    rw [sameRates]
  have sameWeight : m'.directRate = m.directRate := by
    funext base quote
    unfold CurrentRateManager.directRate getDirectBidRate
    rw [sameRates]
  have product := consistent'.multiply (sameDirect.symm ▸ simple) valid.1 1 fuel
  rw [CurrentRateManager.getBidRate, if_pos valid, if_neg differ, noRate]
  simp only [searched, List.isEmpty_cons, Bool.false_eq_true, if_false, List.foldlM_cons]
  rw [CurrentRateManager.multiply, if_neg (by simp)]
  simp only [Option.bind_eq_bind, Option.bind_some, product, Option.map_some, one_mul, sameWeight]

structure RateOf (m : CurrentRateManager) (cp : CurrencyPair) (rate : ℚ) : Prop where
  nonzero : rate ≠ 0 ↔ ReflTransGen m.Direct cp.baseCCY cp.quoteCCY
  product : rate ≠ 0 → ∃ path, SimplePath m.Direct cp.baseCCY cp.quoteCCY path ∧
    rate = weight m.directRate path

theorem Consistent.rateOf_path (consistent : m.Consistent) {path : CurrencyList}
    (simple : SimplePath m.Direct cp.baseCCY cp.quoteCCY path) :
    RateOf m cp (weight m.directRate path) := by
  have positive : 0 < weight m.directRate path :=
    simple.weight_of_forall one_pos (fun _ _ => mul_pos) fun _ _ edge =>
      (consistent.directRate edge).2
  exact ⟨iff_of_true positive.ne' simple.reaches, fun _ => ⟨path, simple, rfl⟩⟩

def afterQuery (m : CurrentRateManager) (cp : CurrencyPair) : CurrentRateManager :=
  if cp.Valid ∧ cp.baseCCY ≠ cp.quoteCCY ∧ m.getDirectBidRate cp = none then
    ((m.getPath (m.bidRateMap.length + 1) cp).map Prod.snd).getD m
  else m

theorem Consistent.getBidRate (consistent : m.Consistent) (cp : CurrencyPair) :
    ∃ rate m', (∀ fuel, m.fuel ≤ fuel → getBidRate fuel cp m = some (rate, m')) ∧
      m'.Consistent ∧ (cp.Valid → cp.baseCCY ≠ cp.quoteCCY → RateOf m cp rate) ∧
      m' = m.afterQuery cp := by
  have succ : ∀ fuel, m.fuel ≤ fuel → ∃ k, fuel = k + 1 + 1 ∧ m.bidRateMap.length < k + 1 := by
    intro fuel enough
    unfold CurrentRateManager.fuel at enough
    exact ⟨fuel - 2, by omega, by omega⟩
  by_cases valid : cp.Valid
  · by_cases same : cp.baseCCY = cp.quoteCCY
    · refine ⟨1, m, fun fuel enough => ?_, consistent, fun _ differ => absurd same differ, ?_⟩
      · obtain ⟨k, rfl, -⟩ := succ fuel enough
        rw [CurrentRateManager.getBidRate, if_pos valid, if_pos same]
      · exact (if_neg fun searches => searches.2.1 same).symm
    · by_cases edge : m.Direct cp.baseCCY cp.quoteCCY
      · have hasRate := (find_isSome_iff consistent.keys valid).mpr edge
        refine ⟨m.directRate cp.baseCCY cp.quoteCCY, m, fun fuel enough => ?_, consistent, ?_, ?_⟩
        · obtain ⟨k, rfl, -⟩ := succ fuel enough
          exact consistent.getBidRate_direct edge same _
        · intro _ _
          have rateOf := consistent.rateOf_path (.pair edge same)
          simpa [weight] using rateOf
        · refine (if_neg fun searches => ?_).symm
          rw [Option.isSome_iff_ne_none] at hasRate
          exact hasRate searches.2.2
      · have noRate : m.getDirectBidRate cp = none := by
          rw [← Option.not_isSome_iff_eq_none]
          exact fun some => edge ((find_isSome_iff consistent.keys valid).mp some)
        obtain ⟨⟨found, m'⟩, returns⟩ := m.getPath_returns cp
        have searched := returns (m.bidRateMap.length + 1) (Nat.lt_succ_self _)
        obtain ⟨consistent', sameRates, simple, complete⟩ :=
          consistent.getPath valid same searched
        have after : m' = m.afterQuery cp := by
          rw [afterQuery, if_pos ⟨valid, same, noRate⟩, searched]
          rfl
        cases found with
        | none =>
            refine ⟨0, m', fun fuel enough => ?_, consistent', ?_, after⟩
            · obtain ⟨k, rfl, enough'⟩ := succ fuel enough
              rw [CurrentRateManager.getBidRate, if_pos valid, if_neg same, noRate]
              simp only [returns _ enough']
            · intro _ _
              refine ⟨iff_of_false (by simp) fun reaches => ?_, by simp⟩
              exact absurd (complete reaches) Bool.false_ne_true
        | some path =>
            have simple := (simple path rfl).1
            refine ⟨weight m.directRate path, m', fun fuel enough => ?_, consistent',
              fun _ _ => consistent.rateOf_path simple, after⟩
            obtain ⟨k, rfl, enough'⟩ := succ fuel enough
            exact consistent'.getBidRate_path sameRates valid same noRate simple (returns _ enough')
  · refine ⟨0, m, fun fuel enough => ?_, consistent, fun valid' => absurd valid' valid, ?_⟩
    · obtain ⟨k, rfl, -⟩ := succ fuel enough
      rw [CurrentRateManager.getBidRate, if_neg valid]
    · exact (if_neg fun searches => valid searches.1).symm

/-! ## Sequences of calls -/

theorem Sound.mono {map' : BidRateMap} (sound : Sound map pathMap)
    (more : ∀ base quote, map.Direct base quote → map'.Direct base quote) :
    Sound map' pathMap :=
  ⟨fun cp path cached => (sound.simple cp path cached).mono more, sound.closed⟩

theorem Consistent.setBidRate (consistent : m.Consistent) (cp : CurrencyPair) (rate : ℚ) :
    (m.setBidRate cp rate).2.Consistent := by
  unfold CurrentRateManager.setBidRate
  split_ifs with accepted
  · cases found : m.bidRateMap.find cp with
    | some old =>
        refine ⟨?_, ?_, ?_, consistent.sound.mono fun base quote => (direct_assign rate _ _).mpr⟩
        · intro entry member
          obtain ⟨entry', member', same, -⟩ := exists_of_mem_assign member
          exact same ▸ consistent.keys entry' member'
        · intro entry member
          obtain ⟨entry', member', -, changed⟩ := exists_of_mem_assign member
          cases changed with
          | inl new => exact new ▸ accepted.1
          | inr same => exact same ▸ consistent.positive entry' member'
        · intro entry member
          obtain ⟨entry', member', same, -⟩ := exists_of_mem_assign member
          exact same ▸ consistent.known entry' member'
    | none =>
        refine ⟨?_, ?_, ?_, consistent.sound.mono fun base quote old =>
          (direct_insertBefore _ rate _ _).mpr (.inl old)⟩
        · intro entry member
          cases Ordered.mem_insertBefore.mp member with
          | inl new => exact new ▸ accepted.2
          | inr old => exact consistent.keys entry old
        · intro entry member
          cases Ordered.mem_insertBefore.mp member with
          | inl new => exact new ▸ accepted.1
          | inr old => exact consistent.positive entry old
        · intro entry member
          simp only [Finset.mem_insert]
          cases Ordered.mem_insertBefore.mp member with
          | inl new => exact new ▸ ⟨.inr (.inl rfl), .inl rfl⟩
          | inr old =>
              obtain ⟨base, quote⟩ := consistent.known entry old
              exact ⟨.inr (.inr base), .inr (.inr quote)⟩
  · exact consistent

theorem Consistent.direct_setBidRate (consistent : m.Consistent) {rate : ℚ}
    (accepted : rate > 0 ∧ cp.Valid) (base quote : Currency) :
    (m.setBidRate cp rate).2.Direct base quote ↔
      m.Direct base quote ∨ base = cp.baseCCY ∧ quote = cp.quoteCCY := by
  unfold CurrentRateManager.setBidRate
  rw [if_pos accepted]
  cases found : m.bidRateMap.find cp with
  | some old =>
      have edge := (find_isSome_iff consistent.keys accepted.2).mp (by rw [found]; rfl)
      refine (direct_assign rate base quote).trans (iff_self_or.mpr ?_)
      rintro ⟨rfl, rfl⟩
      exact edge
  | none => exact direct_insertBefore _ rate base quote

theorem pathMap_setBidRate (m : CurrentRateManager) (cp : CurrencyPair) (rate : ℚ) :
    (m.setBidRate cp rate).2.pathMap = m.pathMap := by
  unfold setBidRate
  split_ifs
  · cases m.bidRateMap.find cp <;> rfl
  · rfl

inductive Call where
  | setBidRate (cp : CurrencyPair) (rate : ℚ)
  | setAskRate (cp : CurrencyPair) (rate : ℚ)
  | getBidRate (cp : CurrencyPair)
  | getAskRate (cp : CurrencyPair)

def step (m : CurrentRateManager) : Call → CurrentRateManager
  | .setBidRate cp rate => (m.setBidRate cp rate).2
  | .setAskRate cp rate => (m.setAskRate cp rate).2
  | .getBidRate cp => ((getBidRate m.fuel cp m).map Prod.snd).getD m
  | .getAskRate cp => ((getAskRate m.fuel cp m).map Prod.snd).getD m

theorem Consistent.step_getBidRate (consistent : m.Consistent) (cp : CurrencyPair) :
    m.step (.getBidRate cp) = m.afterQuery cp ∧ (m.afterQuery cp).Consistent := by
  obtain ⟨rate, m', returns, consistent', -, rfl⟩ := consistent.getBidRate cp
  refine ⟨?_, consistent'⟩
  show ((CurrentRateManager.getBidRate m.fuel cp m).map Prod.snd).getD m = _
  rw [returns m.fuel le_rfl]
  rfl

theorem Consistent.step_getAskRate (consistent : m.Consistent) (cp : CurrencyPair) :
    m.step (.getAskRate cp) = m.afterQuery cp.reverse := by
  obtain ⟨rate, m', returns, -, -, rfl⟩ := consistent.getBidRate cp.reverse
  show ((getAskRate m.fuel cp m).map Prod.snd).getD m = _
  rw [getAskRate, returns m.fuel le_rfl]
  rfl

theorem Consistent.setAskRate (consistent : m.Consistent) (cp : CurrencyPair) (rate : ℚ) :
    (m.setAskRate cp rate).2.Consistent := by
  unfold CurrentRateManager.setAskRate
  split_ifs with positive
  · exact consistent.setBidRate cp.reverse (1 / rate)
  · exact consistent

theorem Consistent.step (consistent : m.Consistent) (call : Call) : (m.step call).Consistent := by
  cases call with
  | setBidRate cp rate => exact consistent.setBidRate cp rate
  | setAskRate cp rate => exact consistent.setAskRate cp rate
  | getBidRate cp =>
      rw [(consistent.step_getBidRate cp).1]
      exact (consistent.step_getBidRate cp).2
  | getAskRate cp =>
      rw [consistent.step_getAskRate cp]
      exact (consistent.step_getBidRate cp.reverse).2

theorem consistent_empty : Consistent {} :=
  ⟨by simp [ValidKeys], by simp, by simp, ⟨by simp, by simp⟩⟩

/-- After any calls the cached paths are simple paths over the direct rates, and `GetBidRate` is
the product along such a path, zero where there is none. A search returns on every graph. -/
theorem rates_follow_paths :
    (∀ calls cp path, (run step {} calls).pathMap cp = some path →
      SimplePath (run step {} calls).Direct cp.baseCCY cp.quoteCCY path) ∧
    (∀ (m : CurrentRateManager) cp, ∃ result, ∀ fuel, m.bidRateMap.length < fuel →
      m.getPath fuel cp = some result) ∧
    (∀ calls cp, cp.Valid → cp.baseCCY ≠ cp.quoteCCY →
      ∃ rate m', (∀ fuel, (run step {} calls).fuel ≤ fuel →
        getBidRate fuel cp (run step {} calls) = some (rate, m')) ∧
        RateOf (run step {} calls) cp rate) := by
  have consistent : ∀ calls, (run step {} calls).Consistent := fun calls =>
    run_keeps (fun m call consistent => consistent.step call) consistent_empty calls
  refine ⟨fun calls => (consistent calls).sound.simple, getPath_returns, ?_⟩
  intro calls cp valid differ
  obtain ⟨rate, m', returns, -, rateOf, -⟩ := (consistent calls).getBidRate cp
  exact ⟨rate, m', returns, rateOf valid differ⟩

end CurrentRateManager

end SpotGridBot.Utils
