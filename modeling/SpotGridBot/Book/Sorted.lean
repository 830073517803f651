import SpotGridBot.Book.OrderBook
import SpotGridBot.Lib.Runs

namespace SpotGridBot.Book
open Utils Runs

def NoWorse (bid : Bool) (price price' : ℤ) : Prop :=
  if bid then price' ≤ price else price ≤ price'

def SortedVec (bid : Bool) (vec : QuoteVec) : Prop :=
  vec.Pairwise fun q q' =>
    NoWorse bid q.price q'.price ∧ (q.price = q'.price → q'.volume ≤ q.volume)

theorem ahead_iff {bid : Bool} {q q' : Quote} :
    ahead bid q q' ↔
      NoWorse bid q.price q'.price ∧ (q.price = q'.price → q'.volume ≤ q.volume) := by
  unfold ahead NoWorse
  by_cases same : q.price = q'.price
  · simp [same]
  · cases bid with
    | true =>
        simp only [ne_eq, same, not_false_eq_true, if_true, false_implies, and_true]
        omega
    | false =>
        simp only [ne_eq, same, not_false_eq_true, if_true, false_implies, and_true]
        simp only [Bool.false_eq_true, if_false]
        omega

instance (bid : Bool) : Std.Total (ahead bid) where
  total q q' := by
    simp only [ahead_iff, NoWorse]
    cases bid <;> simp <;> omega

instance (bid : Bool) : IsTrans Quote (ahead bid) where
  trans q q' q'' := by
    simp only [ahead_iff, NoWorse]
    cases bid <;> simp <;> omega

theorem sortedVec_iff {bid : Bool} {vec : QuoteVec} :
    SortedVec bid vec ↔ vec.Pairwise (ahead bid) := by
  have same : ahead bid = fun q q' =>
      NoWorse bid q.price q'.price ∧ (q.price = q'.price → q'.volume ≤ q.volume) := by
    funext q q'
    exact propext ahead_iff
  rw [SortedVec, same]

theorem eraseReferred_sublist {α : Type*} (quoteOf : α → Quote) (quote : Quote) (vec : List α) :
    (eraseReferred quoteOf quote vec).Sublist vec := by
  unfold eraseReferred
  split_ifs
  · exact List.eraseP_sublist
  · exact List.Sublist.refl _
  · exact List.Sublist.refl _

theorem updateVec_eq (bid : Bool) (quote : Quote) (vec : QuoteVec) :
    updateVec id bid quote vec = if quote.quoteType = qtDelete then eraseReferred id quote vec
      else (eraseReferred id quote vec).orderedInsert (ahead bid) quote := by
  unfold updateVec
  by_cases delete : quote.quoteType = qtDelete
  · simp [delete]
  · simp only [id_eq, ne_eq, delete, not_false_eq_true, if_true, if_false]
    cases eraseReferred id quote vec with
    | nil => rfl
    | cons q rest => exact Ordered.insertBefore_eq_orderedInsert (ahead bid) quote (q :: rest)

theorem updateVec_sorted {bid : Bool} {vec : QuoteVec} (quote : Quote)
    (sorted : SortedVec bid vec) : SortedVec bid (updateVec id bid quote vec) := by
  rw [sortedVec_iff] at sorted ⊢
  have erased := sorted.sublist (eraseReferred_sublist id quote vec)
  rw [updateVec_eq]
  split
  · exact erased
  · exact erased.orderedInsert quote _

namespace OrderBook

def Sorted (book : OrderBook) : Prop :=
  ∀ entry ∈ book.quoteVectorMap, ∀ bid, SortedVec bid (entry.2.get bid)

@[simp] theorem addQuote_map (book : OrderBook) (cp : CurrencyPair) (bid : Bool) (quote : Quote) :
    (book.addQuote cp bid quote).quoteVectorMap =
      VectorMap.update id (VectorMap.withVectors book.quoteVectorMap cp) cp bid quote := by
  unfold addQuote
  simp only
  split <;> rfl

theorem addQuote_sorted {book : OrderBook} (sorted : book.Sorted) (cp : CurrencyPair) (bid : Bool)
    (quote : Quote) : (book.addQuote cp bid quote).Sorted := by
  intro entry member side
  rw [addQuote_map] at member
  have before : ∀ entry ∈ VectorMap.withVectors book.quoteVectorMap cp, ∀ bid,
      SortedVec bid (entry.2.get bid) := by
    intro entry member bid
    rcases OrderedMap.mem_of_mem_emplace member with rfl | old
    · cases bid <;> exact List.Pairwise.nil
    · exact sorted entry old bid
  rcases OrderedMap.mem_modify member with old | ⟨vectors, old, edited⟩
  · exact before entry old side
  · rw [edited]
    by_cases same : side = bid
    · subst same
      rw [BidAskPair.get_set_same]
      exact updateVec_sorted quote (before _ old side)
    · rw [BidAskPair.get_set_other _ _ same]
      exact before _ old side

theorem quotes_sorted {book : OrderBook} (sorted : book.Sorted) (cp : CurrencyPair) (bid : Bool) :
    SortedVec bid (book.quotes cp bid) := by
  unfold quotes VectorMap.vector VectorMap.find
  cases found : OrderedMap.find CurrencyPair.lt cp book.quoteVectorMap with
  | none => exact List.Pairwise.nil
  | some entry => exact sorted entry (OrderedMap.find_some found).1 bid

inductive Operation where
  | addQuote (cp : CurrencyPair) (bid : Bool) (quote : Quote)
  | clear

def apply (book : OrderBook) : Operation → OrderBook
  | .addQuote cp bid quote => book.addQuote cp bid quote
  | .clear => book.clear

theorem apply_sorted (book : OrderBook) (op : Operation) (sorted : book.Sorted) :
    (book.apply op).Sorted := by
  cases op with
  | addQuote cp bid quote => exact addQuote_sorted sorted cp bid quote
  | clear =>
      intro entry member
      contradiction

theorem run_sorted (ops : List Operation) : (run apply {} ops).Sorted :=
  run_keeps apply_sorted (fun _ member => by contradiction) ops

end OrderBook

end SpotGridBot.Book
