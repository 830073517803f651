import SpotGridBot.Book.Frame

namespace SpotGridBot.Book
open Utils Runs

def IsBest (bid : Bool) (vec : QuoteVec) (accept : Quote → Bool) : Option Quote → Prop
  | none => ∀ q ∈ vec, 0 < q.price → accept q = false
  | some best => best ∈ vec ∧ 0 < best.price ∧ accept best = true ∧
      ∀ q ∈ vec, 0 < q.price → accept q = true → NoWorse bid best.price q.price

theorem find?_isBest {bid : Bool} {vec : QuoteVec} (sorted : SortedVec bid vec)
    (accept : Quote → Bool) :
    IsBest bid vec accept (vec.find? fun q => 0 < q.price && accept q) := by
  cases found : vec.find? fun q => 0 < q.price && accept q with
  | none =>
      intro q member positive
      have rejected := List.find?_eq_none.mp found q member
      simpa [positive] using rejected
  | some best =>
      have accepted := List.find?_some found
      simp only [Bool.and_eq_true, decide_eq_true_eq] at accepted
      refine ⟨List.mem_of_find?_eq_some found, accepted.1, accepted.2, ?_⟩
      intro q member positive accepts
      rcases Ordered.rel_of_find?_eq_some sorted found member (by simp [positive, accepts])
        with rfl | below
      · cases bid <;> simp [NoWorse]
      · exact below.1

namespace OrderBook

theorem getBestQuotes_get (book : OrderBook) (cp : CurrencyPair)
    (acceptPredicate : Bool → Quote → Bool) (bid : Bool) :
    (book.getBestQuotes cp acceptPredicate).get bid =
      (book.quotes cp bid).find? fun q => 0 < q.price && acceptPredicate bid q := by
  unfold getBestQuotes quotes VectorMap.vector
  change _ = (((book.find cp).map fun vectors => vectors.get bid).getD []).find? _
  cases book.find cp with
  | none => cases bid <;> rfl
  | some vectors => cases bid <;> rfl

theorem getBestPrices_get (book : OrderBook) (cp : CurrencyPair)
    (acceptPredicate : Bool → Quote → Bool) (bid : Bool) :
    (book.getBestPrices cp acceptPredicate).get bid =
      (((book.getBestQuotes cp acceptPredicate).get bid).map Quote.price).getD 0 := by
  cases bid <;> rfl

def storedAfter (cp : CurrencyPair) (bid : Bool) (vec : QuoteVec) : Operation → QuoteVec
  | .addQuote cp' bid' quote => if cp' = cp ∧ bid' = bid then updateVec id bid quote vec else vec
  | .clear => []

def stored (ops : List Operation) (cp : CurrencyPair) (bid : Bool) : QuoteVec :=
  run (storedAfter cp bid) [] ops

def Operation.pair? : Operation → Option CurrencyPair
  | .addQuote cp _ _ => some cp
  | .clear => none

def added (ops : List Operation) : Set CurrencyPair := { cp | some cp ∈ ops.map Operation.pair? }

section Stored
variable {pairs : Set CurrencyPair} {cp : CurrencyPair} {book : OrderBook}

theorem quotes_run (apart : pairs.Pairwise CurrencyPair.Apart) (known : cp ∈ pairs) (bid : Bool)
    {ops : List Operation} (inside : added ops ⊆ pairs) (keyed : book.Keyed pairs) :
    (run apply book ops).quotes cp bid = run (storedAfter cp bid) (book.quotes cp bid) ops := by
  induction ops generalizing book with
  | nil => rfl
  | cons op ops ih =>
      have later : added ops ⊆ pairs := fun cp' listed => inside (List.mem_cons_of_mem _ listed)
      cases op with
      | addQuote cp' bid' quote =>
          have here : cp' ∈ pairs := inside List.mem_cons_self
          have next : (book.addQuote cp' bid' quote).quotes cp bid =
              storedAfter cp bid (book.quotes cp bid) (.addQuote cp' bid' quote) := by
            rw [quotes_addQuote apart keyed here known]
            change _ = if cp' = cp ∧ bid' = bid then _ else _
            by_cases same : cp' = cp ∧ bid' = bid
            · obtain ⟨rfl, rfl⟩ := same
              rw [if_pos ⟨rfl, rfl⟩]
            · rw [if_neg fun both => same ⟨both.1.symm, both.2.symm⟩, if_neg same]
          rw [run_cons, run_cons, ← next]
          exact ih later (keyed.addQuote here bid' quote)
      | clear => exact ih later ⟨by simp [apply, clear], List.Pairwise.nil⟩

end Stored

structure Best (book : OrderBook) (cp : CurrencyPair) (bid : Bool) (vec : QuoteVec) : Prop where
  best : ∀ acceptPredicate, IsBest bid vec (acceptPredicate bid)
    ((book.getBestQuotes cp acceptPredicate).get bid)
  price : ∀ acceptPredicate, (book.getBestPrices cp acceptPredicate).get bid =
    match (book.getBestQuotes cp acceptPredicate).get bid with
    | some best => best.price
    | none => 0
  zero : ∀ acceptPredicate, (book.getBestPrices cp acceptPredicate).get bid = 0 ↔
    ∀ q ∈ vec, 0 < q.price → acceptPredicate bid q = false

theorem best_quotes {book : OrderBook} (sorted : book.Sorted) (cp : CurrencyPair) (bid : Bool) :
    book.Best cp bid (book.quotes cp bid) := by
  have best : ∀ acceptPredicate : Bool → Quote → Bool,
      IsBest bid (book.quotes cp bid) (acceptPredicate bid)
        ((book.getBestQuotes cp acceptPredicate).get bid) := by
    intro acceptPredicate
    rw [getBestQuotes_get]
    exact find?_isBest (quotes_sorted sorted cp bid) (acceptPredicate bid)
  refine ⟨best, fun acceptPredicate => ?_, fun acceptPredicate => ?_⟩
  · rw [getBestPrices_get]
    split
    next found => simp [found]
    next found => simp [found]
  · have first := best acceptPredicate
    rw [getBestPrices_get]
    cases found : (book.getBestQuotes cp acceptPredicate).get bid with
    | none =>
        rw [found] at first
        simpa [IsBest] using first
    | some q =>
        rw [found] at first
        obtain ⟨member, positive, accepted, -⟩ := first
        constructor
        · intro zero
          have price : q.price = 0 := by simpa using zero
          omega
        · intro none
          simp [none q member positive] at accepted

/-- After any sequence of operations every vector is sorted, and of a pair that `operator<` tells
from all pairs that were added the readers return the best accepted quote with a positive price. -/
theorem sorted_and_best (ops : List Operation) :
    (run apply {} ops).Sorted ∧
    ∀ cp, (insert cp (added ops)).Pairwise CurrencyPair.Apart → ∀ bid,
      SortedVec bid (stored ops cp bid) ∧ (run apply {} ops).Best cp bid (stored ops cp bid) := by
  have sorted := run_sorted ops
  refine ⟨sorted, fun cp apart bid => ?_⟩
  have same : (run apply {} ops).quotes cp bid = stored ops cp bid :=
    quotes_run apart (Set.mem_insert cp _) bid (Set.subset_insert cp _)
      ⟨by simp, List.Pairwise.nil⟩
  rw [← same]
  exact ⟨quotes_sorted sorted cp bid, best_quotes sorted cp bid⟩

theorem sorted_and_best_twoPairs :
    Best (run apply {} [.addQuote ⟨.eur, .usd⟩ true (.of 100 1),
      .addQuote ⟨⟨71⟩, .usd⟩ true (.of 7 2), .addQuote ⟨.eur, .usd⟩ true (.of 101 3)])
      ⟨.eur, .usd⟩ true [.of 101 3, .of 100 1] := by
  have apart : (insert ⟨.eur, .usd⟩ (added [.addQuote ⟨.eur, .usd⟩ true (.of 100 1),
      .addQuote ⟨⟨71⟩, .usd⟩ true (.of 7 2), .addQuote ⟨.eur, .usd⟩ true (.of 101 3)])).Pairwise
        CurrencyPair.Apart := by
    refine CurrencyPair.valid_apart.mono fun cp member => ?_
    simp only [added, Set.mem_insert_iff, Set.mem_ofPred_eq, List.map_cons, Operation.pair?,
      List.map_nil, List.mem_cons, Option.some.injEq, List.not_mem_nil, or_false] at member
    rcases member with rfl | rfl | rfl | rfl <;> decide
  exact ((sorted_and_best _).2 ⟨.eur, .usd⟩ apart true).2

theorem half_empty_pair_getsOther :
    ¬ ∀ ops cp bid, (run apply {} ops).Best cp bid (stored ops cp bid) := by
  intro always
  have best := (always [.addQuote ⟨.eur, .usd⟩ true (.of 100 1)] ⟨.eur, .none⟩ true).best
    fun _ _ => true
  have found : ((run apply {} [.addQuote ⟨.eur, .usd⟩ true (.of 100 1)]).getBestQuotes
      ⟨.eur, .none⟩ fun _ _ => true).get true = some (.of 100 1) := by decide
  rw [found] at best
  exact absurd best.1 (by decide)

def ReadersAgree (book : OrderBook) (cp : CurrencyPair) (bid : Bool)
    (acceptPredicate : Bool → Quote → Bool) : Prop :=
  book.getBestQuote cp bid acceptPredicate = (book.getBestQuotes cp acceptPredicate).get bid ∧
  book.getBestPrice cp bid acceptPredicate = (book.getBestPrices cp acceptPredicate).get bid

theorem getBestQuote_eq (book : OrderBook) (cp : CurrencyPair) (bid : Bool)
    (acceptPredicate : Bool → Quote → Bool) :
    book.getBestQuote cp bid acceptPredicate =
      (book.quotes cp bid).find? fun q => 0 < q.price := by
  unfold getBestQuote quotes VectorMap.vector
  change _ = (((book.find cp).map fun vectors => vectors.get bid).getD []).find? _
  cases book.find cp with
  | none => rfl
  | some vectors => rfl

theorem readersAgree_iff_quote {book : OrderBook} {cp : CurrencyPair} {bid : Bool}
    {acceptPredicate : Bool → Quote → Bool} :
    book.ReadersAgree cp bid acceptPredicate ↔
      ((book.quotes cp bid).find? fun q => 0 < q.price) =
        (book.quotes cp bid).find? fun q => 0 < q.price && acceptPredicate bid q := by
  unfold ReadersAgree
  rw [getBestPrices_get, getBestQuotes_get, getBestPrice, getBestQuote_eq]
  constructor
  · exact And.left
  · intro same
    exact ⟨same, by rw [same]⟩

/-- The readers agree where the predicate accepts the first quote with a positive price. -/
theorem readersAgree_iff (book : OrderBook) (cp : CurrencyPair) (bid : Bool)
    (acceptPredicate : Bool → Quote → Bool) :
    book.ReadersAgree cp bid acceptPredicate ↔
      ∀ before q after, book.quotes cp bid = before ++ q :: after →
        (∀ other ∈ before, other.price ≤ 0) → 0 < q.price → acceptPredicate bid q = true := by
  rw [readersAgree_iff_quote]
  constructor
  · intro same before q after quotes skipped positive
    have first : (book.quotes cp bid).find? (fun q => 0 < q.price) = some q := by
      rw [List.find?_eq_some_iff_append]
      exact ⟨by simpa using positive, before, after, quotes, by simpa using skipped⟩
    rw [first] at same
    have accepted := List.find?_some same.symm
    simp only [Bool.and_eq_true] at accepted
    exact accepted.2
  · intro accepts
    cases found : (book.quotes cp bid).find? fun q => 0 < q.price with
    | none =>
        symm
        rw [List.find?_eq_none] at found ⊢
        intro q member
        simpa using fun positive => absurd positive (by simpa using found q member)
    | some q =>
        symm
        obtain ⟨positive, before, after, quotes, skipped⟩ :=
          List.find?_eq_some_iff_append.mp found
        have accepted := accepts before q after quotes (by simpa using skipped)
          (by simpa using positive)
        rw [List.find?_eq_some_iff_append]
        refine ⟨by simpa [accepted] using positive, before, after, quotes, ?_⟩
        intro other member
        have negative : other.price ≤ 0 := by simpa using skipped other member
        simp [not_lt.mpr negative]

theorem readers_differ :
    ¬ ∀ (ops : List Operation) (cp : CurrencyPair) (bid : Bool)
      (acceptPredicate : Bool → Quote → Bool),
      (run apply {} ops).ReadersAgree cp bid acceptPredicate := by
  intro agree
  let eurUsd : CurrencyPair := ⟨Currency.eur, Currency.usd⟩
  have same := agree [.addQuote eurUsd true (.of 100 1)] eurUsd true fun _ _ => false
  rw [readersAgree_iff_quote] at same
  revert same
  decide

end OrderBook

end SpotGridBot.Book
