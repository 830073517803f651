import SpotGridBot.Book.Sorted
import SpotGridBot.Lib.Grouping
import Mathlib.Data.List.TakeWhile

namespace SpotGridBot.Book
open Utils Runs Grouping

/-- `BookView::QuoteGroupFunc` over a state `σ`: level, quote group, and `cont` before and after. -/
abbrev QuoteGroupFunc (σ Ptr : Type*) := σ → ℕ → List Ptr → Bool → σ × Bool

section
variable {Ptr σ : Type*} (quote : Ptr → Quote) (quotePred : Option (Ptr → Bool))

def accepts (q : Ptr) : Bool := quotePred.all fun p => p q

def sameLevel (price : ℤ) : Bool → List Ptr → List Ptr → Bool × List Ptr × List Ptr
  | success, group, [] => (success, group, [])
  | success, group, q :: rest =>
      if price = (quote q).price then
        if accepts quotePred q then sameLevel price true (group ++ [q]) rest
        else sameLevel price success group rest
      else (success, group, q :: rest)

theorem sameLevel_eq (price : ℤ) (success : Bool) (group it : List Ptr) :
    sameLevel quote quotePred price success group it =
      (success || (it.takeWhile fun q => price = (quote q).price).any (accepts quotePred),
        group ++ (it.takeWhile fun q => price = (quote q).price).filter (accepts quotePred),
        it.dropWhile fun q => price = (quote q).price) := by
  induction it generalizing success group with
  | nil => simp [sameLevel]
  | cons q rest ih =>
      unfold sameLevel
      by_cases same : price = (quote q).price
      · subst same
        by_cases accepted : accepts quotePred q = true
        · simp [accepted, ih]
        · simp [accepted, ih]
      · simp [same]

theorem sameLevel_shorter (success : Bool) (group : List Ptr) (q : Ptr) (rest : List Ptr) :
    (sameLevel quote quotePred (quote q).price success group (q :: rest)).2.2.length <
      (q :: rest).length := by
  rw [sameLevel_eq, List.dropWhile_cons_of_pos (by simp)]
  exact Nat.lt_succ_of_le (List.length_dropWhile_le _ rest)

def getNextLevel.loop (success : Bool) (group : List Ptr) : List Ptr → Bool × List Ptr × List Ptr
  | [] => (success, group, [])
  | q :: rest =>
      let level := sameLevel quote quotePred (quote q).price success group (q :: rest)
      if level.1 then level else loop level.1 level.2.1 level.2.2
termination_by it => it.length
decreasing_by exact sameLevel_shorter quote quotePred success group q rest

/-- The group, null where no quote is accepted, and the iterator behind its level. -/
def getNextLevel (iterator : List Ptr) : Option (List Ptr) × List Ptr :=
  let (success, group, iterator) := getNextLevel.loop quote quotePred false [] iterator
  (if success then some group else none, iterator)

theorem getNextLevel_cons (q : Ptr) (after : List Ptr) :
    getNextLevel quote quotePred (q :: after) =
      let level := (q :: after).takeWhile fun q' => (quote q).price = (quote q').price
      let later := (q :: after).dropWhile fun q' => (quote q).price = (quote q').price
      if level.any (accepts quotePred) then (some (level.filter (accepts quotePred)), later)
      else getNextLevel quote quotePred later := by
  unfold getNextLevel
  rw [getNextLevel.loop, sameLevel_eq]
  simp only [Bool.false_or, List.nil_append]
  split
  next accepted => simp
  next rejected =>
    have none := List.filter_eq_nil_iff.mpr fun q member accepted =>
      rejected (List.any_eq_true.mpr ⟨q, member, accepted⟩)
    rw [none, Bool.not_eq_true _ |>.mp rejected]

theorem loop_shorter (success : Bool) (group it : List Ptr) :
    (getNextLevel.loop quote quotePred success group it).2.2.length ≤ it.length := by
  fun_induction getNextLevel.loop quote quotePred success group it with
  | case1 => exact le_rfl
  | case2 success group q rest => exact (sameLevel_shorter quote quotePred success group q rest).le
  | case3 success group q rest level _ ih =>
      exact ih.trans (sameLevel_shorter quote quotePred success group q rest).le

theorem getNextLevel_shorter (q : Ptr) (after : List Ptr) :
    (getNextLevel quote quotePred (q :: after)).2.length < (q :: after).length := by
  have shorter := sameLevel_shorter quote quotePred false [] q after
  unfold getNextLevel
  rw [getNextLevel.loop]
  simp only
  split
  · exact shorter
  · exact (loop_shorter quote quotePred _ _ _).trans_lt shorter

theorem loop_failed (success : Bool) (group it : List Ptr)
    (failed : (getNextLevel.loop quote quotePred success group it).1 = false) :
    (getNextLevel.loop quote quotePred success group it).2.2 = [] := by
  fun_induction getNextLevel.loop quote quotePred success group it with
  | case1 => rfl
  | case2 _ _ _ _ level found => exact absurd (found.symm.trans failed) (by decide)
  | case3 _ _ _ _ _ _ ih => exact ih failed

theorem getNextLevel_none {it : List Ptr}
    (rejected : (getNextLevel quote quotePred it).1 = none) :
    (getNextLevel quote quotePred it).2 = [] :=
  loop_failed quote quotePred false [] it (by simpa [getNextLevel] using rejected)

def iterateQuoteGroups.loop (action : QuoteGroupFunc σ Ptr) (s : σ) (level : ℕ) (cont : Bool) :
    List Ptr → σ
  | [] => s
  | q :: after =>
      if cont then
        let next := getNextLevel quote quotePred (q :: after)
        match next.1 with
        | some quoteGroup =>
            let (s, cont) := action s level quoteGroup cont
            loop action s (level + 1) cont next.2
        | none => loop action s (level + 1) cont next.2
      else s
termination_by itQuote => itQuote.length
decreasing_by all_goals exact getNextLevel_shorter quote quotePred q after

/-- `quotes` is the vector of the side, empty where the map has no entry for the pair. -/
def iterateQuoteGroups (action : QuoteGroupFunc σ Ptr) (s : σ) (quotes : List Ptr) : σ :=
  iterateQuoteGroups.loop quote quotePred action s 1 true quotes

def getLevels.action : QuoteGroupFunc (List (List Ptr) × ℕ) Ptr
  | (out, n), _, quoteGroup, _ =>
      if n = 0 then ((out ++ [quoteGroup], n), true)
      else ((out ++ [quoteGroup], n - 1), 0 < n - 1)

def getLevels (n : ℕ) (quotes : List Ptr) : List (List Ptr) :=
  (iterateQuoteGroups quote quotePred getLevels.action ([], n) quotes).1

def levels : List Ptr → List (List Ptr)
  | [] => []
  | q :: after =>
      let next := getNextLevel quote quotePred (q :: after)
      next.1.toList ++ levels next.2
termination_by itQuote => itQuote.length
decreasing_by exact getNextLevel_shorter quote quotePred q after

def passLevels (action : QuoteGroupFunc σ Ptr) : σ → ℕ → List (List Ptr) → σ
  | s, _, [] => s
  | s, level, quoteGroup :: rest =>
      let (s, cont) := action s level quoteGroup true
      if cont then passLevels action s (level + 1) rest else s

theorem iterateQuoteGroups_stopped (action : QuoteGroupFunc σ Ptr) (s : σ) (level : ℕ)
    (it : List Ptr) : iterateQuoteGroups.loop quote quotePred action s level false it = s := by
  cases it with
  | nil => rw [iterateQuoteGroups.loop]
  | cons q after => simp [iterateQuoteGroups.loop]

theorem iterateQuoteGroups_loop_eq (action : QuoteGroupFunc σ Ptr) (s : σ) (level : ℕ)
    (it : List Ptr) :
    iterateQuoteGroups.loop quote quotePred action s level true it =
      passLevels action s level (levels quote quotePred it) := by
  match it with
  | [] => rw [iterateQuoteGroups.loop, levels, passLevels]
  | q :: after =>
      have shorter := getNextLevel_shorter quote quotePred q after
      rw [iterateQuoteGroups.loop, levels]
      simp only [if_true]
      cases found : (getNextLevel quote quotePred (q :: after)).1 with
      | none =>
          rw [getNextLevel_none quote quotePred found]
          simp [iterateQuoteGroups.loop, levels, passLevels]
      | some quoteGroup =>
          simp only [Option.toList_some, List.singleton_append, passLevels]
          cases (action s level quoteGroup true).2 with
          | true => exact iterateQuoteGroups_loop_eq action _ (level + 1) _
          | false => exact iterateQuoteGroups_stopped quote quotePred action _ (level + 1) _
termination_by it.length
decreasing_by exact shorter

theorem iterateQuoteGroups_eq (action : QuoteGroupFunc σ Ptr) (s : σ) (quotes : List Ptr) :
    iterateQuoteGroups quote quotePred action s quotes =
      passLevels action s 1 (levels quote quotePred quotes) :=
  iterateQuoteGroups_loop_eq quote quotePred action s 1 quotes

theorem passLevels_getLevels (out : List (List Ptr)) (n level : ℕ) (groups : List (List Ptr)) :
    (passLevels getLevels.action (out, n) level groups).1 =
      out ++ if n = 0 then groups else groups.take n := by
  induction groups generalizing out n level with
  | nil => simp [passLevels]
  | cons quoteGroup rest ih =>
      match n with
      | 0 => simp [passLevels, getLevels.action, ih]
      | 1 => simp [passLevels, getLevels.action]
      | n + 2 => simp [passLevels, getLevels.action, ih]

theorem getLevels_eq (n : ℕ) (quotes : List Ptr) :
    getLevels quote quotePred n quotes =
      if n = 0 then levels quote quotePred quotes else (levels quote quotePred quotes).take n := by
  rw [getLevels, iterateQuoteGroups_eq, passLevels_getLevels, List.nil_append]

end

def Better (bid : Bool) (price price' : ℤ) : Prop := if bid then price' < price else price < price'

instance (bid : Bool) : DecidableRel (Better bid) := fun price price' =>
  inferInstanceAs (Decidable (if bid then price' < price else price < price'))

theorem Better.asymm {bid : Bool} (price price' : ℤ) (better : Better bid price price') :
    ¬ Better bid price' price := by
  unfold Better at *
  cases bid
  · exact not_lt.mpr better.le
  · exact not_lt.mpr better.le

section
variable {Ptr σ : Type*} {quote : Ptr → Quote} {quotePred : Option (Ptr → Bool)} {bid : Bool}
  {it : List Ptr}

def InOrder (quote : Ptr → Quote) (bid : Bool) (it : List Ptr) : Prop :=
  it.Pairwise fun q q' => NoWorse bid (quote q).price (quote q').price

theorem better_of_mem_dropWhile {price : ℤ} (inOrder : InOrder quote bid it)
    (noWorse : ∀ q ∈ it, NoWorse bid price (quote q).price) :
    ∀ q ∈ it.dropWhile fun q => price = (quote q).price, Better bid price (quote q).price := by
  induction it with
  | nil => simp
  | cons head rest ih =>
      obtain ⟨first, inOrder⟩ := List.pairwise_cons.mp inOrder
      obtain ⟨here, later⟩ := List.forall_mem_cons.mp noWorse
      by_cases same : price = (quote head).price
      · rw [List.dropWhile_cons_of_pos (by simpa using same)]
        exact ih inOrder later
      · rw [List.dropWhile_cons_of_neg (by simpa using same)]
        have better : Better bid price (quote head).price := by
          unfold NoWorse at here
          unfold Better
          cases bid
          · exact lt_of_le_of_ne here same
          · exact lt_of_le_of_ne here (Ne.symm same)
        refine List.forall_mem_cons.mpr ⟨better, fun q member => ?_⟩
        have below := first q member
        unfold NoWorse at below
        unfold Better at better ⊢
        cases bid
        · exact lt_of_lt_of_le better below
        · exact lt_of_le_of_lt below better

theorem firstLevel (quotePred : Option (Ptr → Bool)) {q : Ptr} {after : List Ptr}
    (inOrder : InOrder quote bid (q :: after)) :
    ∃ level later, q :: after = level ++ later ∧ later.length < (q :: after).length ∧
      getNextLevel quote quotePred (q :: after) =
        (if level.any (accepts quotePred) then (some (level.filter (accepts quotePred)), later)
        else getNextLevel quote quotePred later) ∧
      (∀ q' ∈ level, (quote q').price = (quote q).price) ∧
      ∀ q' ∈ later, Better bid (quote q).price (quote q').price := by
  refine ⟨(q :: after).takeWhile fun q' => (quote q).price = (quote q').price,
    (q :: after).dropWhile fun q' => (quote q).price = (quote q').price,
    List.takeWhile_append_dropWhile.symm, ?_,
    getNextLevel_cons quote quotePred q after, ?_, ?_⟩
  · rw [List.dropWhile_cons_of_pos (by simp)]
    exact Nat.lt_succ_of_le (List.length_dropWhile_le _ after)
  · intro q' member
    have same := List.mem_takeWhile_imp member
    simp only [decide_eq_true_eq] at same
    exact same.symm
  · refine better_of_mem_dropWhile inOrder (List.forall_mem_cons.mpr ⟨?_, ?_⟩)
    · cases bid <;> simp [NoWorse]
    · exact (List.pairwise_cons.mp inOrder).1

theorem getNextLevel_cases (quotePred : Option (Ptr → Bool)) (it : List Ptr)
    (inOrder : InOrder quote bid it) :
    (getNextLevel quote quotePred it = (none, []) ∧ it.filter (accepts quotePred) = []) ∨
    ∃ group rest, getNextLevel quote quotePred it = (some group, rest) ∧ rest <:+ it ∧
      group ≠ [] ∧ it.filter (accepts quotePred) = group ++ rest.filter (accepts quotePred) ∧
      ∃ price, (∀ q ∈ group, (quote q).price = price) ∧
        ∀ q ∈ rest, Better bid price (quote q).price := by
  match it with
  | [] => exact .inl ⟨by simp [getNextLevel, getNextLevel.loop], rfl⟩
  | q :: after =>
      obtain ⟨level, later, parts, shorter, next, same, worse⟩ := firstLevel quotePred inOrder
      rw [next, parts, List.filter_append]
      by_cases accepted : level.any (accepts quotePred) = true
      · rw [if_pos accepted]
        refine .inr ⟨_, later, rfl, List.suffix_append level later, ?_, rfl, (quote q).price, ?_,
          worse⟩
        · obtain ⟨q', member, accepted⟩ := List.any_eq_true.mp accepted
          exact List.ne_nil_of_mem (List.mem_filter.mpr ⟨member, accepted⟩)
        · exact fun q' member => same q' (List.mem_of_mem_filter member)
      · have rejected : level.filter (accepts quotePred) = [] :=
          List.filter_eq_nil_iff.mpr fun q' member accepts =>
            accepted (List.any_eq_true.mpr ⟨q', member, accepts⟩)
        rw [if_neg accepted, rejected, List.nil_append]
        have inOrder : InOrder quote bid later := by
          rw [parts] at inOrder
          exact (List.pairwise_append.mp inOrder).2.1
        rcases getNextLevel_cases quotePred later inOrder with
          none | ⟨group, rest, found, suffix, found'⟩
        · exact .inl none
        · exact .inr ⟨group, rest, found, suffix.trans (List.suffix_append level later), found'⟩
termination_by it.length
decreasing_by exact shorter

theorem levels_grouped (quotePred : Option (Ptr → Bool)) (it : List Ptr)
    (inOrder : InOrder quote bid it) :
    Grouped (fun q => (quote q).price) (Better bid) (levels quote quotePred it) ∧
    (levels quote quotePred it).flatten = it.filter (accepts quotePred) := by
  match it with
  | [] =>
      rw [levels]
      exact ⟨Grouped.nil, rfl⟩
  | q :: after =>
      have shorter := getNextLevel_shorter quote quotePred q after
      rw [levels]
      rcases getNextLevel_cases quotePred (q :: after) inOrder with
        ⟨next, rejected⟩ | ⟨group, rest, next, suffix, nonempty, accepted, price, same, worse⟩
      · rw [next, rejected, levels]
        exact ⟨Grouped.nil, rfl⟩
      · rw [next] at shorter
        rw [next]
        obtain ⟨grouped, joined⟩ := levels_grouped quotePred rest (inOrder.sublist suffix.sublist)
        simp only [Option.toList_some, List.singleton_append]
        refine ⟨grouped.cons nonempty ⟨price, same⟩ ?_, ?_⟩
        · intro a here b there
          rw [joined] at there
          rw [same a here]
          exact worse b (List.mem_of_mem_filter there)
        · rw [List.flatten_cons, joined, accepted]
termination_by it.length
decreasing_by simpa [next] using shorter

theorem getLevels_grouped (n : ℕ) (inOrder : InOrder quote bid it) :
    Grouped (fun q => (quote q).price) (Better bid) (getLevels quote quotePred n it) := by
  have grouped := (levels_grouped quotePred it inOrder).1
  rw [getLevels_eq]
  split
  · exact grouped
  · exact grouped.sublist (List.take_sublist n _)

theorem getLevels_flatten (n : ℕ) (inOrder : InOrder quote bid it) :
    (getLevels quote quotePred n it).flatten =
      (it.filter (accepts quotePred)).filter fun q => n = 0 ∨
        (betterKeys (fun q => (quote q).price) (Better bid) (it.filter (accepts quotePred)) q).card
          < n := by
  obtain ⟨grouped, joined⟩ := levels_grouped quotePred it inOrder
  rw [getLevels_eq]
  by_cases unlimited : n = 0
  · rw [if_pos unlimited, joined]
    exact (List.filter_eq_self.mpr (by simp [unlimited])).symm
  · rw [if_neg unlimited, grouped.flatten_take Better.asymm n, joined]
    simp [unlimited]

theorem getLevels_length (n : ℕ) (inOrder : InOrder quote bid it) :
    (getLevels quote quotePred n it).length =
      if n = 0 then (keys (fun q => (quote q).price) (it.filter (accepts quotePred))).card
      else min n (keys (fun q => (quote q).price) (it.filter (accepts quotePred))).card := by
  obtain ⟨grouped, joined⟩ := levels_grouped quotePred it inOrder
  have length := grouped.length_eq Better.asymm
  rw [joined] at length
  rw [getLevels_eq]
  split
  · exact length
  · rw [List.length_take, length]

theorem inOrder_of_held {ops : List OrderBook.Operation} {cp : CurrencyPair}
    {quotes : List Ptr} (held : quotes.map quote = (run OrderBook.apply {} ops).quotes cp bid) :
    InOrder quote bid quotes := by
  have sorted := OrderBook.quotes_sorted (OrderBook.run_sorted ops) cp bid
  rw [← held, SortedVec, List.pairwise_map] at sorted
  exact sorted.imp And.left

/-- `quotes` are the pointers that the vector of the side holds. An accepted quote is in one of the
first `n` levels where fewer than `n` of the accepted prices are better than its own. -/
theorem getLevels_partition (ops : List OrderBook.Operation) (cp : CurrencyPair) (bid : Bool)
    (quote : Ptr → Quote) (quotes : List Ptr)
    (held : quotes.map quote = (run OrderBook.apply {} ops).quotes cp bid)
    (quotePred : Option (Ptr → Bool)) (n : ℕ) :
    let price := fun q => (quote q).price
    let accepted := quotes.filter (accepts quotePred)
    Grouped price (Better bid) (getLevels quote quotePred n quotes) ∧
    (getLevels quote quotePred n quotes).flatten =
      accepted.filter (fun q => n = 0 ∨ (betterKeys price (Better bid) accepted q).card < n) ∧
    (getLevels quote quotePred n quotes).length =
      if n = 0 then (keys price accepted).card else min n (keys price accepted).card := by
  have inOrder := inOrder_of_held held
  exact ⟨getLevels_grouped n inOrder, getLevels_flatten n inOrder, getLevels_length n inOrder⟩

def twoBids : List OrderBook.Operation :=
  [.addQuote ⟨Currency.eur, Currency.usd⟩ true (.of 100 1),
    .addQuote ⟨Currency.eur, Currency.usd⟩ true (.of 99 2)]

theorem getLevels_partition_twoBids :
    let price := fun q : Quote => q.price
    let quotes : List Quote := [.of 100 1, .of 99 2]
    let levels := getLevels id (some fun q => q.volume == 2) 1 quotes
    let accepted := quotes.filter (accepts (some fun q => q.volume == 2))
    Grouped price (Better true) levels ∧
    levels.flatten =
      accepted.filter (fun q => 1 = 0 ∨ (betterKeys price (Better true) accepted q).card < 1) ∧
    levels.length = if 1 = 0 then (keys price accepted).card else min 1 (keys price accepted).card :=
  getLevels_partition twoBids ⟨Currency.eur, Currency.usd⟩ true id
    [.of 100 1, .of 99 2] (by decide) (some fun q => q.volume == 2) 1

end
end SpotGridBot.Book
