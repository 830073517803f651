import SpotGridBot.Book.Sorted

namespace SpotGridBot.Book
open Utils

theorem eraseReferred_eq {quote : Quote} (refers : 0 < quote.refKey)
    (replaces : quote.quoteType = qtDelete ∨ quote.quoteType = qtUpdate) (vec : QuoteVec) :
    eraseReferred id quote vec = vec.eraseP fun q => q.key == quote.refKey := by
  unfold eraseReferred
  rw [if_pos replaces]
  cases vec with
  | nil => rfl
  | cons q vec => rw [if_pos ⟨rfl, refers⟩]; rfl

theorem eraseReferred_eq_self {quote : Quote} (noReference : quote.refKey = 0) (vec : QuoteVec) :
    eraseReferred id quote vec = vec := by
  unfold eraseReferred
  simp [noReference]

theorem updateVec_perm {quote : Quote} (kept : quote.quoteType ≠ qtDelete) (bid : Bool)
    (vec : QuoteVec) : (updateVec id bid quote vec).Perm (quote :: eraseReferred id quote vec) := by
  rw [updateVec_eq, if_neg kept]
  exact List.perm_orderedInsert _ _ _

namespace OrderBook
variable {book : OrderBook} {pairs : Set CurrencyPair} {cp cp' : CurrencyPair}

structure Keyed (book : OrderBook) (pairs : Set CurrencyPair) : Prop where
  inside : ∀ entry ∈ book.quoteVectorMap, entry.1 ∈ pairs
  sorted : OrderedMap.Sorted CurrencyPair.lt book.quoteVectorMap

theorem Keyed.withVectors (keyed : book.Keyed pairs) (known : cp ∈ pairs) :
    Keyed { book with quoteVectorMap := VectorMap.withVectors book.quoteVectorMap cp } pairs where
  inside := by
    intro entry member
    rcases OrderedMap.mem_of_mem_emplace member with rfl | old
    · exact known
    · exact keyed.inside entry old
  sorted := keyed.sorted.emplace CurrencyPair.lt_trans _

theorem Keyed.addQuote (keyed : book.Keyed pairs) (known : cp ∈ pairs) (bid : Bool)
    (quote : Quote) : (book.addQuote cp bid quote).Keyed pairs := by
  have extended := keyed.withVectors known
  constructor
  · intro entry member
    rw [addQuote_map] at member
    rcases OrderedMap.mem_modify member with old | ⟨vectors, old, -⟩
    · exact extended.inside entry old
    · exact extended.inside (entry.1, vectors) old
  · rw [addQuote_map]
    exact extended.sorted.modify cp _

theorem Keyed.find_of_mem (keyed : book.Keyed pairs) {entry : CurrencyPair × BidAskPair QuoteVec}
    (member : entry ∈ book.quoteVectorMap) : book.find entry.1 = some entry.2 := by
  unfold find VectorMap.find
  rw [OrderedMap.find_of_mem CurrencyPair.lt_irrefl keyed.sorted member, Option.map_some]

theorem quotes_withVectors (apart : pairs.Pairwise CurrencyPair.Apart) (keyed : book.Keyed pairs)
    (known : cp ∈ pairs) (known' : cp' ∈ pairs) (bid : Bool) :
    VectorMap.vector (VectorMap.withVectors book.quoteVectorMap cp) cp' bid =
      book.quotes cp' bid := by
  have separated := (CurrencyPair.pairwise_comparable_iff pairs).mpr apart
  have new : ((cp, ⟨[], []⟩) : CurrencyPair × BidAskPair QuoteVec).1 ∈ pairs := known
  have found := OrderedMap.find_emplace CurrencyPair.lt_trans CurrencyPair.lt_irrefl separated
    keyed.inside keyed.sorted new known'
  unfold quotes VectorMap.vector VectorMap.find VectorMap.withVectors
  rw [found]
  cases OrderedMap.find CurrencyPair.lt cp' book.quoteVectorMap with
  | some entry => rfl
  | none =>
      by_cases same : cp = cp'
      · cases bid <;> simp [same, BidAskPair.get]
      · simp [same]

theorem quotes_addQuote (apart : pairs.Pairwise CurrencyPair.Apart) (keyed : book.Keyed pairs)
    (known : cp ∈ pairs) (known' : cp' ∈ pairs) (bid bid' : Bool) (quote : Quote) :
    (book.addQuote cp bid quote).quotes cp' bid' =
      if cp' = cp ∧ bid' = bid then updateVec id bid quote (book.quotes cp bid)
      else book.quotes cp' bid' := by
  have here := quotes_withVectors apart keyed known known bid
  have there := quotes_withVectors apart keyed known known' bid'
  have extended := keyed.withVectors known
  unfold quotes VectorMap.vector VectorMap.find at here there ⊢
  rw [addQuote_map]
  unfold VectorMap.update
  by_cases same : cp' = cp
  · subst same
    obtain ⟨entry, found⟩ := VectorMap.find_withVectors book.quoteVectorMap cp'
    rw [OrderedMap.find_modify_self, found.1, Option.map_some, Option.map_some, Option.map_some]
    rw [found.1] at here there
    by_cases side : bid' = bid
    · subst side
      rw [if_pos ⟨rfl, rfl⟩]
      simpa using congrArg (updateVec id bid' quote) here
    · rw [if_neg fun both => side both.2]
      simpa [side] using there
  · have separated := (CurrencyPair.pairwise_comparable_iff pairs).mpr apart
    have differ := separated known known' (Ne.symm same)
    rw [if_neg fun both => same both.1, OrderedMap.find_modify_other differ]
    · exact there
    · intro entry member
      by_cases own : entry.1 = cp
      · exact .inr own
      · exact .inl (separated (extended.inside entry member) known own)

end OrderBook

end SpotGridBot.Book
