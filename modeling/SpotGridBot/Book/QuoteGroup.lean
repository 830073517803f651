import SpotGridBot.Book.OrderBook
import SpotGridBot.Lib.Runs
import Mathlib.Logic.Function.Basic

/-!
# The aggregate values of a quote group

Threads read and change a group at any time. A getter loads a cached value and, where there is
none, calculates one under the shared lock and stores it after that; a change is made under the
unique lock and the cached values are dropped after that.
-/

namespace SpotGridBot.Book
open Runs

structure AggregateValues where
  minPrice : ℤ := 0
  maxPrice : ℤ := 0
  avgPrice : ℤ := 0
  maxVolume : ℤ := 0
  totalVolume : ℤ := 0
  minQty : ℤ := 0
deriving DecidableEq, Repr

def AggregateValues.add (av : AggregateValues) (q : Quote) : AggregateValues :=
  { av with
    minPrice := if av.totalVolume = 0 ∨ av.minPrice > q.price then q.price else av.minPrice
    maxPrice := max av.maxPrice q.price
    maxVolume := max av.maxVolume q.volume
    totalVolume := av.totalVolume + q.volume
    minQty := max av.minQty q.minQty }

section
variable {Ptr : Type} (quote : Ptr → Quote) (used : Ptr → Bool)

def calculateAggregateValues (unusedOnly : Bool) (quoteVector : List Ptr) : AggregateValues :=
  let considered := (quoteVector.filter fun q => !(unusedOnly && used q)).map quote
  let av := considered.foldl AggregateValues.add {}
  if av.totalVolume = 0 ∨ av.minPrice = av.maxPrice then { av with avgPrice := av.minPrice }
  else { av with
    avgPrice := ((considered.map fun q : Quote => q.price * q.volume).sum).tdiv av.totalVolume }

inductive QuoteGroup.Call (Ptr : Type) where
  | idle
  -- `GetOrCreateAggregateValues`; it stores `av`, which it calculated from the quotes `seen`.
  | load (unusedOnly : Bool)
  | calculate (unusedOnly : Bool)
  | store (unusedOnly : Bool) (seen : List Ptr) (av : AggregateValues)
  | addQuote (q : Ptr)
  | removeQuote (q : Ptr)
  -- `others` are the quotes of the other group when `ForEachQuote` copies them.
  | addQuotes (others : List Ptr)
  -- `InvalidateAggregateValues`, at the first slot and at the second.
  | invalidate (onlyUsedStateChanged : Bool)
  | invalidateAll

/-- The slot `AggIdx(unusedOnly)` is `aggregateValues unusedOnly`. What the getters of the group
have returned is kept in `returned`, which no function of the source reads. -/
structure QuoteGroup (Ptr : Type) where
  quotes : List Ptr := []
  aggregateValues : Bool → Option AggregateValues := fun _ => none
  calls : ℕ → QuoteGroup.Call Ptr := fun _ => .idle
  returned : List (Bool × AggregateValues) := []

namespace QuoteGroup
variable (t : ℕ) (g : QuoteGroup Ptr)

def goOn (call : Call Ptr) : QuoteGroup Ptr := { g with calls := Function.update g.calls t call }

def put (unusedOnly : Bool) (av : Option AggregateValues) : QuoteGroup Ptr :=
  { g with aggregateValues := Function.update g.aggregateValues unusedOnly av }

def giveBack (unusedOnly : Bool) (av : AggregateValues) : QuoteGroup Ptr :=
  { g with returned := g.returned ++ [(unusedOnly, av)] }

def advance [DecidableEq Ptr] : QuoteGroup Ptr :=
  match g.calls t with
  | .idle => g
  | .load unusedOnly =>
      match g.aggregateValues unusedOnly with
      | some av => (g.goOn t .idle).giveBack unusedOnly av
      | none => g.goOn t (.calculate unusedOnly)
  | .calculate unusedOnly =>
      g.goOn t (.store unusedOnly g.quotes (calculateAggregateValues quote used unusedOnly g.quotes))
  | .store unusedOnly _ av => ((g.goOn t .idle).put unusedOnly (some av)).giveBack unusedOnly av
  | .addQuote q => { g.goOn t (.invalidate false) with quotes := g.quotes ++ [q] }
  | .removeQuote q =>
      if q ∈ g.quotes then { g.goOn t (.invalidate false) with quotes := g.quotes.erase q }
      else g.goOn t .idle
  | .addQuotes others => { g.goOn t (.invalidate false) with quotes := g.quotes ++ others }
  | .invalidate onlyUsedStateChanged =>
      (g.goOn t (if onlyUsedStateChanged then .idle else .invalidateAll)).put true none
  | .invalidateAll => (g.goOn t .idle).put false none

inductive Event (Ptr : Type) where
  | get (t : ℕ) (unusedOnly : Bool)
  | addQuote (t : ℕ) (q : Ptr)
  | removeQuote (t : ℕ) (q : Ptr)
  | addQuotes (t : ℕ) (others : List Ptr)
  | invalidateAggregateValues (t : ℕ) (onlyUsedStateChanged : Bool)
  | advance (t : ℕ)

def begin (call : Call Ptr) : QuoteGroup Ptr :=
  match g.calls t with
  | .idle => g.goOn t call
  | _ => g

def step [DecidableEq Ptr] (g : QuoteGroup Ptr) : Event Ptr → QuoteGroup Ptr
  | .get t unusedOnly => g.begin t (.load unusedOnly)
  | .addQuote t q => g.begin t (.addQuote q)
  | .removeQuote t q => g.begin t (.removeQuote q)
  | .addQuotes t others => g.begin t (.addQuotes others)
  | .invalidateAggregateValues t onlyUsedStateChanged =>
      g.begin t (.invalidate onlyUsedStateChanged)
  | .advance t => g.advance quote used t

def init (srcVec : List Ptr) : QuoteGroup Ptr := { quotes := srcVec }

def Quiet : Prop := ∀ t, g.calls t = .idle

def Event.Reads : Event Ptr → Prop
  | .get _ _ | .advance _ => True
  | _ => False

def Coherent [DecidableEq Ptr] (g : QuoteGroup Ptr) : Prop :=
  g.Quiet → ∀ later : List (Event Ptr), (∀ event ∈ later, event.Reads) →
    ∀ result ∈ (run (step quote used) g later).returned.drop g.returned.length,
      result.2 = calculateAggregateValues quote used result.1 g.quotes

def Call.Owes : Call Ptr → Bool → Prop
  | .invalidate onlyUsedStateChanged, unusedOnly =>
      unusedOnly = true ∨ onlyUsedStateChanged = false
  | .invalidateAll, unusedOnly => unusedOnly = false
  | _, _ => False

def Owed (unusedOnly : Bool) : Prop := ∃ t, (g.calls t).Owes unusedOnly

def StoresCurrent (g : QuoteGroup Ptr) : Event Ptr → Prop
  | .advance t => ∀ unusedOnly seen av, g.calls t = .store unusedOnly seen av →
      seen = g.quotes ∨ g.Owed unusedOnly
  | _ => True

theorem begin_cases (call : Call Ptr) :
    g.begin t call = g ∨ g.calls t = .idle ∧ g.begin t call = g.goOn t call := by
  unfold begin
  cases here : g.calls t with
  | idle => exact .inr ⟨rfl, rfl⟩
  | _ => exact .inl rfl

def Call.Reading (quotes : List Ptr) : Call Ptr → Prop
  | .idle | .load _ | .calculate _ => True
  | .store unusedOnly _ av => av = calculateAggregateValues quote used unusedOnly quotes
  | _ => False

structure Settled (quotes : List Ptr) (earlier : List (Bool × AggregateValues)) : Prop where
  unchanged : g.quotes = quotes
  current : ∀ unusedOnly av, g.aggregateValues unusedOnly = some av →
    av = calculateAggregateValues quote used unusedOnly quotes
  reading : ∀ t, (g.calls t).Reading quote used quotes
  returned : ∃ results, g.returned = earlier ++ results ∧
    ∀ result ∈ results, result.2 = calculateAggregateValues quote used result.1 quotes

variable {quote : Ptr → Quote} {used : Ptr → Bool} {g : QuoteGroup Ptr} {t : ℕ}
  {quotes : List Ptr} {earlier : List (Bool × AggregateValues)} {unusedOnly : Bool}
  {av : AggregateValues}

namespace Settled

theorem goOn (settled : g.Settled quote used quotes earlier) (call : Call Ptr)
    (reads : call.Reading quote used quotes) :
    (g.goOn t call).Settled quote used quotes earlier where
  unchanged := settled.unchanged
  current := settled.current
  reading := by
    intro s
    unfold QuoteGroup.goOn
    by_cases same : s = t
    · subst same
      simpa using reads
    · simpa [Function.update_of_ne same] using settled.reading s
  returned := settled.returned

theorem put (settled : g.Settled quote used quotes earlier)
    (calculated : av = calculateAggregateValues quote used unusedOnly quotes) :
    (g.put unusedOnly (some av)).Settled quote used quotes earlier where
  unchanged := settled.unchanged
  current := by
    intro slot value stored
    unfold QuoteGroup.put at stored
    by_cases same : slot = unusedOnly
    · subst same
      simp only [Function.update_self, Option.some.injEq] at stored
      rw [← stored, calculated]
    · simp only [Function.update_of_ne same] at stored
      exact settled.current slot value stored
  reading := settled.reading
  returned := settled.returned

theorem giveBack (settled : g.Settled quote used quotes earlier)
    (calculated : av = calculateAggregateValues quote used unusedOnly quotes) :
    (g.giveBack unusedOnly av).Settled quote used quotes earlier where
  unchanged := settled.unchanged
  current := settled.current
  reading := settled.reading
  returned := by
    obtain ⟨results, same, current⟩ := settled.returned
    refine ⟨results ++ [(unusedOnly, av)], by simp [QuoteGroup.giveBack, same], ?_⟩
    intro result member
    cases List.mem_append.mp member with
    | inl old => exact current result old
    | inr new =>
        rw [List.mem_singleton.mp new]
        exact calculated

variable [DecidableEq Ptr]

theorem advance (settled : g.Settled quote used quotes earlier) :
    (g.advance quote used t).Settled quote used quotes earlier := by
  have reading := settled.reading t
  unfold QuoteGroup.advance
  cases call : g.calls t with
  | idle => exact settled
  | load unusedOnly =>
      simp only
      cases stored : g.aggregateValues unusedOnly with
      | some av =>
          exact (settled.goOn .idle trivial).giveBack
            (settled.current unusedOnly av stored)
      | none => exact settled.goOn (.calculate unusedOnly) trivial
  | calculate unusedOnly =>
      apply settled.goOn
      show calculateAggregateValues quote used unusedOnly g.quotes = _
      rw [settled.unchanged]
  | store unusedOnly seen av =>
      rw [call] at reading
      exact ((settled.goOn .idle trivial).put reading).giveBack reading
  | addQuote | removeQuote | addQuotes | invalidate | invalidateAll =>
      rw [call] at reading
      cases reading

theorem step (settled : g.Settled quote used quotes earlier) {event : Event Ptr}
    (reads : event.Reads) : (g.step quote used event).Settled quote used quotes earlier := by
  cases event with
  | get t unusedOnly =>
      show (g.begin t (.load unusedOnly)).Settled quote used quotes earlier
      obtain same | ⟨-, same⟩ := begin_cases t g (.load unusedOnly)
      · rw [same]
        exact settled
      · rw [same]
        exact settled.goOn (.load unusedOnly) trivial
  | advance t => exact settled.advance
  | addQuote | removeQuote | addQuotes | invalidateAggregateValues => cases reads

end Settled

structure Kept (quote : Ptr → Quote) (used : Ptr → Bool) (g : QuoteGroup Ptr) : Prop where
  current : ∀ unusedOnly av, g.aggregateValues unusedOnly = some av →
    av = calculateAggregateValues quote used unusedOnly g.quotes ∨ g.Owed unusedOnly
  calculated : ∀ t unusedOnly seen av, g.calls t = .store unusedOnly seen av →
    av = calculateAggregateValues quote used unusedOnly seen

theorem Owed.goOn (owed : g.Owed unusedOnly) {call : Call Ptr}
    (pays : ¬ (g.calls t).Owes unusedOnly) : (g.goOn t call).Owed unusedOnly := by
  obtain ⟨s, owes⟩ := owed
  have other : s ≠ t := by
    rintro rfl
    exact pays owes
  refine ⟨s, ?_⟩
  show (Function.update g.calls t call s).Owes unusedOnly
  rw [Function.update_of_ne other]
  exact owes

theorem owed_goOn (call : Call Ptr) (owes : call.Owes unusedOnly) :
    (g.goOn t call).Owed unusedOnly := by
  refine ⟨t, ?_⟩
  show (Function.update g.calls t call t).Owes unusedOnly
  rw [Function.update_self]
  exact owes

theorem calculated_goOn {call : Call Ptr}
    (calculated : ∀ t unusedOnly seen av, g.calls t = .store unusedOnly seen av →
      av = calculateAggregateValues quote used unusedOnly seen)
    (new : ∀ unusedOnly seen av, call = .store unusedOnly seen av →
      av = calculateAggregateValues quote used unusedOnly seen) :
    ∀ s unusedOnly seen av, (g.goOn t call).calls s = .store unusedOnly seen av →
      av = calculateAggregateValues quote used unusedOnly seen := by
  intro s unusedOnly seen av here
  unfold QuoteGroup.goOn at here
  by_cases same : s = t
  · subst same
    simp only [Function.update_self] at here
    exact new unusedOnly seen av here
  · simp only [Function.update_of_ne same] at here
    exact calculated s unusedOnly seen av here

namespace Kept

theorem goOn (kept : g.Kept quote used) (call : Call Ptr)
    (clear : ∀ unusedOnly, ¬ (g.calls t).Owes unusedOnly)
    (new : ∀ unusedOnly seen av, call = .store unusedOnly seen av →
      av = calculateAggregateValues quote used unusedOnly seen) :
    (g.goOn t call).Kept quote used where
  current := by
    intro unusedOnly av stored
    cases kept.current unusedOnly av stored with
    | inl current => exact .inl current
    | inr owed => exact .inr (owed.goOn (clear unusedOnly))
  calculated := calculated_goOn kept.calculated new

theorem change (kept : g.Kept quote used) (quotes : List Ptr) :
    Kept quote used { g.goOn t (.invalidate false) with quotes := quotes } where
  current := fun _ _ _ => .inr (owed_goOn (.invalidate false) (.inr rfl))
  calculated := calculated_goOn kept.calculated (by simp)

theorem put (kept : g.Kept quote used) {stored : Option AggregateValues} {call : Call Ptr}
    (pays : ∀ slot, slot ≠ unusedOnly → (g.calls t).Owes slot → call.Owes slot)
    (filled : ∀ av, stored = some av →
      av = calculateAggregateValues quote used unusedOnly g.quotes ∨ (g.goOn t call).Owed unusedOnly)
    (new : ∀ unusedOnly seen av, call ≠ .store unusedOnly seen av) :
    ((g.goOn t call).put unusedOnly stored).Kept quote used where
  current := by
    intro slot av value
    unfold QuoteGroup.put at value
    by_cases same : slot = unusedOnly
    · subst same
      simp only [Function.update_self] at value
      exact filled av value
    · simp only [Function.update_of_ne same] at value
      cases kept.current slot av value with
      | inl current => exact .inl current
      | inr owed =>
          by_cases owes : (g.calls t).Owes slot
          · exact .inr (owed_goOn call (pays slot same owes))
          · exact .inr (owed.goOn owes)
  calculated := calculated_goOn kept.calculated (fun _ _ _ here => absurd here (new _ _ _))

theorem begin (kept : g.Kept quote used) (call : Call Ptr)
    (new : ∀ unusedOnly seen av, call ≠ .store unusedOnly seen av) :
    (g.begin t call).Kept quote used := by
  obtain same | ⟨idle, same⟩ := begin_cases t g call
  · rw [same]
    exact kept
  · rw [same]
    exact kept.goOn call (by simp [idle, Call.Owes]) (fun _ _ _ here => absurd here (new _ _ _))

theorem init (srcVec : List Ptr) : (QuoteGroup.init srcVec).Kept quote used where
  current := by simp [QuoteGroup.init]
  calculated := by simp [QuoteGroup.init]

theorem settled (kept : g.Kept quote used) (quiet : g.Quiet) :
    g.Settled quote used g.quotes g.returned where
  unchanged := rfl
  current := by
    intro unusedOnly av stored
    refine (kept.current unusedOnly av stored).resolve_right ?_
    rintro ⟨t, owes⟩
    rw [quiet t] at owes
    exact owes
  reading := by
    intro t
    rw [quiet t]
    trivial
  returned := ⟨[], by simp, by simp⟩

theorem store (kept : g.Kept quote used) {seen : List Ptr}
    (call : g.calls t = .store unusedOnly seen av)
    (current : seen = g.quotes ∨ g.Owed unusedOnly) :
    ((g.goOn t .idle).put unusedOnly (some av)).Kept quote used := by
  have clear : ∀ slot, ¬ (g.calls t).Owes slot := by simp [call, Call.Owes]
  apply kept.put
  · intro slot _ owes
    exact absurd owes (clear slot)
  · intro _ here
    cases here
    cases current with
    | inl same => exact .inl (by rw [kept.calculated t unusedOnly seen av call, same])
    | inr owed => exact .inr (owed.goOn (clear unusedOnly))
  · simp

variable [DecidableEq Ptr]

theorem advance (kept : g.Kept quote used)
    (current : StoresCurrent g (.advance t)) : (g.advance quote used t).Kept quote used := by
  unfold QuoteGroup.advance
  cases call : g.calls t with
  | idle => exact kept
  | load unusedOnly =>
      simp only
      have clear : ∀ slot, ¬ (g.calls t).Owes slot := by simp [call, Call.Owes]
      cases g.aggregateValues unusedOnly with
      | some av =>
          have idle := kept.goOn .idle clear (by simp)
          exact ⟨idle.current, idle.calculated⟩
      | none => exact kept.goOn (.calculate unusedOnly) clear (by simp)
  | calculate unusedOnly =>
      have clear : ∀ slot, ¬ (g.calls t).Owes slot := by simp [call, Call.Owes]
      apply kept.goOn _ clear
      intro slot seen av here
      cases here
      rfl
  | store unusedOnly seen av =>
      have stored := kept.store call (current unusedOnly seen av call)
      exact ⟨stored.current, stored.calculated⟩
  | addQuote q => exact kept.change _
  | removeQuote q =>
      simp only
      split
      · exact kept.change _
      · exact kept.goOn .idle (by simp [call, Call.Owes]) (by simp)
  | addQuotes others => exact kept.change _
  | invalidate onlyUsedStateChanged =>
      apply kept.put
      · intro slot other owes
        cases onlyUsedStateChanged <;> simp_all [Call.Owes]
      · simp
      · cases onlyUsedStateChanged <;> simp
  | invalidateAll =>
      apply kept.put
      · intro slot other owes
        rw [call] at owes
        exact absurd owes other
      · simp
      · simp

theorem step (kept : g.Kept quote used) {event : Event Ptr} (current : StoresCurrent g event) :
    (g.step quote used event).Kept quote used := by
  cases event with
  | get t unusedOnly => exact kept.begin (.load unusedOnly) (by simp)
  | addQuote t q => exact kept.begin (.addQuote q) (by simp)
  | removeQuote t q => exact kept.begin (.removeQuote q) (by simp)
  | addQuotes t others => exact kept.begin (.addQuotes others) (by simp)
  | invalidateAggregateValues t onlyUsedStateChanged =>
      exact kept.begin (.invalidate onlyUsedStateChanged) (by simp)
  | advance t => exact kept.advance current

theorem coherent (kept : g.Kept quote used) : g.Coherent quote used := by
  intro quiet later reads result member
  have settled : Always (QuoteGroup.step quote used)
      (fun h => h.Settled quote used g.quotes g.returned) g later :=
    always_of_invariant (fun _ _ reads settled => Settled.step settled reads)
      (kept.settled quiet) (along_of_forall reads g)
  have settled := settled.last
  obtain ⟨results, same, current⟩ := settled.returned
  rw [same, List.drop_left] at member
  exact current result member

end Kept

def priced (price : ℕ) : Quote := Quote.of price 1

theorem coherent_of_storesCurrent [DecidableEq Ptr] (srcVec : List Ptr) (events : List (Event Ptr))
    (current : Along (step quote used) StoresCurrent (init srcVec) events) :
    Always (step quote used) (Coherent quote used) (init srcVec) events := by
  have kept : Always (step quote used) (Kept quote used) (init srcVec) events :=
    always_of_invariant (fun _ _ current kept => Kept.step kept current) (Kept.init srcVec) current
  exact kept.mono fun _ => Kept.coherent

theorem coherent_when_dropped_last :
    Always (step priced fun _ => false) (Coherent priced fun _ => false) (init [1])
      [.get 0 true, .advance 0, .advance 0, .addQuote 1 2, .advance 1, .advance 0, .advance 1,
        .advance 1] := by
  apply coherent_of_storesCurrent
  refine ⟨trivial, ?_, ?_, trivial, ?_, ?_, ?_, ?_, trivial⟩
  · exact nofun
  · exact nofun
  · exact nofun
  · exact fun unusedOnly _ _ _ => .inr ⟨1, .inr rfl⟩
  · exact nofun
  · exact nofun

theorem not_coherent_of_stale [DecidableEq Ptr] {seen : List Ptr}
    (alone : ∀ s, s ≠ t → g.calls s = .idle) (storing : g.calls t = .store unusedOnly seen av)
    (stale : av ≠ calculateAggregateValues quote used unusedOnly g.quotes) :
    ¬ (g.advance quote used t).Coherent quote used := by
  intro coherent
  have stored : g.advance quote used t =
      ((g.goOn t .idle).put unusedOnly (some av)).giveBack unusedOnly av := by
    unfold advance
    rw [storing]
  rw [stored] at coherent
  have quiet : (((g.goOn t .idle).put unusedOnly (some av)).giveBack unusedOnly av).Quiet := by
    intro s
    show Function.update g.calls t .idle s = .idle
    by_cases same : s = t
    · rw [same, Function.update_self]
    · rw [Function.update_of_ne same]
      exact alone s same
  refine stale (coherent quiet [.get t unusedOnly, .advance t] ?_ (unusedOnly, av) ?_)
  · simp [Event.Reads]
  · simp [run, step, begin, advance, goOn, put, giveBack]

/-- A getter calculates, a quote is added and both slots are dropped, and then the getter stores. -/
theorem late_store_stays :
    ¬ ∀ events, Always (step priced fun _ => false) (Coherent priced fun _ => false)
      (init [1]) events := by
  intro always
  let before : List (Event ℕ) := [.get 0 true, .advance 0, .advance 0,
    .addQuote 1 2, .advance 1, .advance 1, .advance 1]
  let storing : QuoteGroup ℕ := run (step priced fun _ => false) (init [1]) before
  have here : storing.calls 0 =
      .store true [1] (calculateAggregateValues priced (fun _ => false) true [1]) := rfl
  have alone : ∀ s, s ≠ 0 → storing.calls s = .idle := by
    intro s other
    match s with
    | 1 => rfl
    | s + 2 => rfl
  have coherent := (always (before ++ [.advance 0])).last
  rw [run_append] at coherent
  exact not_coherent_of_stale alone here (by decide) coherent

end QuoteGroup
end

end SpotGridBot.Book
