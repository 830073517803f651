import SpotGridBot.Utils.CurrencyPair
import SpotGridBot.Lib.Ordered
import Mathlib.Data.Finset.Insert

/-!
# Current rates

The direct bid rates, in the order of the map, and the cache of currency paths that the getters
fill. The searches run on fuel, `none` when it runs out. The calls come one after another.
-/

namespace SpotGridBot.Utils

abbrev CurrencyList := List Currency

abbrev PathMap := CurrencyPair → Option CurrencyList

abbrev BidRateMap := List (CurrencyPair × ℚ)

structure CurrentRateManager where
  bidRateMap : BidRateMap := []
  currencies : Finset Currency := ∅
  pathMap : PathMap := fun _ => none

def CurrencyPair.reverse (cp : CurrencyPair) : CurrencyPair :=
  if cp.Valid then ⟨cp.quoteCCY, cp.baseCCY⟩ else cp

def BidRateMap.find (map : BidRateMap) (cp : CurrencyPair) : Option ℚ :=
  (map.find? fun entry => entry.1.equivalent cp).map Prod.snd

def BidRateMap.assign (map : BidRateMap) (cp : CurrencyPair) (rate : ℚ) : BidRateMap :=
  map.map fun entry => if entry.1.equivalent cp then (entry.1, rate) else entry

namespace CurrentRateManager

section Search
variable (bidRateMap : BidRateMap)

/-- `emplace` keeps a path that is there; the path in the map is returned. -/
def addPath (cp : CurrencyPair) (newPath : CurrencyList) (pathMap : PathMap) :
    CurrencyList × PathMap :=
  match pathMap cp with
  | some path => (path, pathMap)
  | none => (newPath, Function.update pathMap cp (some newPath))

def shorter (tmpSubPath bestSubPath : Option CurrencyList) : Option CurrencyList :=
  match tmpSubPath, bestSubPath with
  | some tmp, some best => if tmp.length < best.length then tmpSubPath else bestSubPath
  | some _, none => tmpSubPath
  | none, _ => bestSubPath

/-- One turn of the loop; `search` is the recursive call. -/
def tryEdge (cp : CurrencyPair) (ignoreList : CurrencyList)
    (search : CurrencyPair → PathMap → Option (Option CurrencyList × PathMap))
    (found : Option CurrencyList × PathMap) (entry : CurrencyPair × ℚ) :
    Option (Option CurrencyList × PathMap) :=
  if entry.1.baseCCY = cp.baseCCY ∧ entry.1.quoteCCY ∉ ignoreList then
    (search ⟨entry.1.quoteCCY, cp.quoteCCY⟩ found.2).map fun next =>
      (shorter next.1 found.1, next.2)
  else some found

def splice (cp : CurrencyPair) (found : Option CurrencyList × PathMap) :
    Option CurrencyList × PathMap :=
  match found.1 with
  | some bestSubPath =>
      let (path, pathMap) := addPath cp (cp.baseCCY :: bestSubPath) found.2
      (some path, pathMap)
  | none => (none, found.2)

def searchPath : ℕ → CurrencyPair → CurrencyList → PathMap →
    Option (Option CurrencyList × PathMap)
  | 0, _, _, _ => none
  | fuel + 1, cp, ignoreList, pathMap =>
      if cp.Valid then
        match pathMap cp with
        | some path => some (some path, pathMap)
        | none =>
            if (bidRateMap.find cp).isSome then
              let (path, pathMap) := addPath cp [cp.baseCCY, cp.quoteCCY] pathMap
              some (some path, pathMap)
            else
              let ignoreList := ignoreList ++ [cp.baseCCY]
              let search cp pathMap := searchPath fuel cp ignoreList pathMap
              (bidRateMap.foldlM (tryEdge cp ignoreList search) (none, pathMap)).map (splice cp)
      else some (none, pathMap)

end Search

variable (m : CurrentRateManager)

def setBidRate (cp : CurrencyPair) (rate : ℚ) : Bool × CurrentRateManager :=
  if rate > 0 ∧ cp.Valid then
    match m.bidRateMap.find cp with
    | some _ => (true, { m with bidRateMap := m.bidRateMap.assign cp rate })
    | none =>
        (true, { m with
          bidRateMap := Ordered.insertBefore (fun entry => cp.lt entry.1) (cp, rate) m.bidRateMap
          currencies := insert cp.quoteCCY (insert cp.baseCCY m.currencies) })
  else (false, m)

def setAskRate (cp : CurrencyPair) (rate : ℚ) : Bool × CurrentRateManager :=
  if rate > 0 then m.setBidRate cp.reverse (1 / rate) else (false, m)

def getDirectBidRate (cp : CurrencyPair) : Option ℚ := m.bidRateMap.find cp

def getPath (fuel : ℕ) (cp : CurrencyPair) : Option (Option CurrencyList × CurrentRateManager) :=
  if cp.baseCCY ∉ m.currencies ∨ cp.quoteCCY ∉ m.currencies then some (none, m)
  else
    (searchPath m.bidRateMap fuel cp [] m.pathMap).map fun (path, pathMap) =>
      (path, { m with pathMap := pathMap })

/-- The loop over the currencies of a path; the state is the rate and `lastCcy`. -/
def multiply (getRate : CurrencyPair → CurrentRateManager → Option (ℚ × CurrentRateManager))
    (state : (ℚ × Currency) × CurrentRateManager) (ccy : Currency) :
    Option ((ℚ × Currency) × CurrentRateManager) :=
  if state.1.2 ≠ Currency.invalid then
    (getRate ⟨state.1.2, ccy⟩ state.2).map fun (rate, m) => ((state.1.1 * rate, ccy), m)
  else some ((state.1.1, ccy), state.2)

def getBidRate : ℕ → CurrencyPair → CurrentRateManager → Option (ℚ × CurrentRateManager)
  | 0, _, _ => none
  | fuel + 1, cp, m =>
      if cp.Valid then
        if cp.baseCCY = cp.quoteCCY then some (1, m)
        else
          match m.getDirectBidRate cp with
          | some rate => some (rate, m)
          | none =>
              match m.getPath fuel cp with
              | none => none
              | some (none, m) => some (0, m)
              | some (some ccyPath, m) =>
                  if ccyPath.isEmpty then some (0, m)
                  else
                    (ccyPath.foldlM (multiply (getBidRate fuel)) ((1, Currency.invalid), m)).map
                      fun (state, m) => (state.1, m)
      else some (0, m)

def getAskRate (fuel : ℕ) (cp : CurrencyPair) (m : CurrentRateManager) :
    Option (ℚ × CurrentRateManager) :=
  (getBidRate fuel cp.reverse m).map fun (reverseBidRate, m) =>
    (if reverseBidRate ≠ 0 then 1 / reverseBidRate else 0, m)

def fuel : ℕ := m.bidRateMap.length + 2

end CurrentRateManager

end SpotGridBot.Utils
