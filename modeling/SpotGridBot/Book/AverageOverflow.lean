import SpotGridBot.Book.QuoteGroup
import SpotGridBot.Utils.Wrapping
import Mathlib.Algebra.Order.BigOperators.Group.List

namespace SpotGridBot.Book
open Utils

def AggregateValues.add64 (av : AggregateValues) (q : Quote) : AggregateValues :=
  { av with
    minPrice := if av.totalVolume = 0 ∨ av.minPrice > q.price then q.price else av.minPrice
    maxPrice := max av.maxPrice q.price
    maxVolume := max av.maxVolume q.volume
    totalVolume := int64 (av.totalVolume + q.volume)
    minQty := max av.minQty q.minQty }

def sum64 (considered : List Quote) : ℤ :=
  considered.foldl (fun sum q => int64 (sum + int64 (q.price * q.volume))) 0

def aggregate64 (considered : List Quote) : AggregateValues :=
  let av := considered.foldl AggregateValues.add64 {}
  if av.totalVolume = 0 ∨ av.minPrice = av.maxPrice then { av with avgPrice := av.minPrice }
  else { av with avgPrice := (sum64 considered).tdiv av.totalVolume }

section
variable {Ptr : Type} (quote : Ptr → Quote) (used : Ptr → Bool)

def considered (unusedOnly : Bool) (quoteVector : List Ptr) : List Quote :=
  (quoteVector.filter fun q => !(unusedOnly && used q)).map quote

/-- `CalculateAggregateValues` with sums and products that wrap. -/
def calculateAggregateValues64 (unusedOnly : Bool) (quoteVector : List Ptr) : AggregateValues :=
  aggregate64 (considered quote used unusedOnly quoteVector)

end

def totalVolume (quotes : List Quote) : ℤ := (quotes.map Quote.volume).sum

def turnover (quotes : List Quote) : ℤ := (quotes.map fun q => q.price * q.volume).sum

structure RightValues (quotes : List Quote) (av : AggregateValues) : Prop where
  min_le : ∀ q ∈ quotes, av.minPrice ≤ q.price
  min_mem : quotes ≠ [] → ∃ q ∈ quotes, q.price = av.minPrice
  le_max : ∀ q ∈ quotes, q.price ≤ av.maxPrice
  max_mem : quotes ≠ [] → ∃ q ∈ quotes, q.price = av.maxPrice
  min_le_avg : av.minPrice ≤ av.avgPrice
  avg_le_max : av.avgPrice ≤ av.maxPrice
  average : 0 < totalVolume quotes → av.avgPrice = (turnover quotes).tdiv (totalVolume quotes)

def counted : List Quote → List Quote
  | [] => []
  | [q] => [q]
  | q :: q' :: rest => if q.volume = 0 then counted (q' :: rest) else q :: q' :: rest

theorem counted_sublist (quotes : List Quote) : (counted quotes).Sublist quotes := by
  fun_induction counted quotes with
  | case1 => exact List.Sublist.refl _
  | case2 => exact List.Sublist.refl _
  | case3 q q' rest _ ih => exact ih.cons q
  | case4 => exact List.Sublist.refl _

theorem totalVolume_nonneg {quotes : List Quote} (volumes : ∀ q ∈ quotes, 0 ≤ q.volume) :
    0 ≤ totalVolume quotes :=
  List.sum_nonneg (by simpa using volumes)

theorem turnover_nonneg {quotes : List Quote} (prices : ∀ q ∈ quotes, 0 < q.price)
    (volumes : ∀ q ∈ quotes, 0 ≤ q.volume) : 0 ≤ turnover quotes := by
  refine List.sum_nonneg ?_
  simp only [List.mem_map, forall_exists_index, and_imp, forall_apply_eq_imp_iff₂]
  exact fun q member => mul_nonneg (prices q member).le (volumes q member)

theorem foldl_add64 {quotes : List Quote} {av : AggregateValues} (start : 0 ≤ av.totalVolume)
    (volumes : ∀ q ∈ quotes, 0 ≤ q.volume) (fits : av.totalVolume + totalVolume quotes < 2 ^ 63) :
    quotes.foldl AggregateValues.add64 av = quotes.foldl AggregateValues.add av := by
  induction quotes generalizing av with
  | nil => rfl
  | cons q quotes ih =>
      obtain ⟨here, later⟩ := List.forall_mem_cons.mp volumes
      have rest := totalVolume_nonneg later
      simp only [totalVolume, List.map_cons, List.sum_cons] at fits rest
      have same : av.add64 q = av.add q := by
        unfold AggregateValues.add64 AggregateValues.add
        rw [int64_eq (by omega) (by omega)]
      rw [List.foldl_cons, List.foldl_cons, same]
      refine ih (by simp only [AggregateValues.add]; omega) later ?_
      simp only [AggregateValues.add, totalVolume]
      omega

theorem sum64_eq (quotes : List Quote) : sum64 quotes = int64 (turnover quotes) := by
  have loop : ∀ sum, InInt64 sum →
      quotes.foldl (fun sum q => int64 (sum + int64 (q.price * q.volume))) sum =
        int64 (sum + turnover quotes) := by
    induction quotes with
    | nil =>
        intro sum inRange
        simpa [turnover] using inRange.int64.symm
    | cons q quotes ih =>
        intro sum _
        rw [List.foldl_cons, ih _ (int64_inInt64 _)]
        apply int64_congr
        have wrapped := (int64_modEq (sum + int64 (q.price * q.volume))).trans
          ((int64_modEq (q.price * q.volume)).add_left sum)
        simpa [turnover, add_assoc] using wrapped.add_right (turnover quotes)
  have start := loop 0 (by decide)
  rwa [zero_add] at start

theorem foldl_maxPrice (quotes : List Quote) (av : AggregateValues) :
    let after := quotes.foldl AggregateValues.add av
    av.maxPrice ≤ after.maxPrice ∧ (∀ q ∈ quotes, q.price ≤ after.maxPrice) ∧
      (after.maxPrice = av.maxPrice ∨ ∃ q ∈ quotes, q.price = after.maxPrice) := by
  induction quotes generalizing av with
  | nil => simp
  | cons q quotes ih =>
      obtain ⟨grows, bounds, attained⟩ := ih (av.add q)
      have here : (av.add q).maxPrice = max av.maxPrice q.price := rfl
      rw [here] at grows attained
      refine ⟨(le_max_left _ _).trans grows, ?_, ?_⟩
      · exact List.forall_mem_cons.mpr ⟨(le_max_right _ _).trans grows, bounds⟩
      · rcases attained with same | ⟨q', member, same⟩
        · rcases max_choice av.maxPrice q.price with old | new
          · exact .inl (same.trans old)
          · exact .inr ⟨q, List.mem_cons_self, (same.trans new).symm⟩
        · exact .inr ⟨q', List.mem_cons_of_mem q member, same⟩

theorem foldl_minPrice_pos {quotes : List Quote} {av : AggregateValues}
    (positive : 0 < av.totalVolume) (volumes : ∀ q ∈ quotes, 0 ≤ q.volume) :
    let after := quotes.foldl AggregateValues.add av
    after.minPrice ≤ av.minPrice ∧ (∀ q ∈ quotes, after.minPrice ≤ q.price) ∧
      (after.minPrice = av.minPrice ∨ ∃ q ∈ quotes, q.price = after.minPrice) := by
  induction quotes generalizing av with
  | nil => simp
  | cons q quotes ih =>
      obtain ⟨here, later⟩ := List.forall_mem_cons.mp volumes
      have positive' : 0 < (av.add q).totalVolume := by
        simp only [AggregateValues.add]
        omega
      obtain ⟨shrinks, bounds, attained⟩ := ih positive' later
      have least : (av.add q).minPrice = min av.minPrice q.price := by
        simp only [AggregateValues.add, positive.ne', false_or]
        split <;> omega
      rw [least] at shrinks attained
      refine ⟨shrinks.trans (min_le_left _ _), ?_, ?_⟩
      · exact List.forall_mem_cons.mpr ⟨shrinks.trans (min_le_right _ _), bounds⟩
      · rcases attained with same | ⟨q', member, same⟩
        · rcases min_choice av.minPrice q.price with old | new
          · exact .inl (same.trans old)
          · exact .inr ⟨q, List.mem_cons_self, (same.trans new).symm⟩
        · exact .inr ⟨q', List.mem_cons_of_mem q member, same⟩

theorem foldl_minPrice {quotes : List Quote} {av : AggregateValues} (zero : av.totalVolume = 0)
    (volumes : ∀ q ∈ quotes, 0 ≤ q.volume) (nonempty : quotes ≠ []) :
    let after := quotes.foldl AggregateValues.add av
    (∀ q ∈ counted quotes, after.minPrice ≤ q.price) ∧
      ∃ q ∈ counted quotes, q.price = after.minPrice := by
  fun_induction counted quotes generalizing av with
  | case1 => exact absurd rfl nonempty
  | case2 q => simp [AggregateValues.add, zero]
  | case3 q q' rest none ih =>
      exact ih (by simp [AggregateValues.add, zero, none]) (List.forall_mem_cons.mp volumes).2
        (by simp)
  | case4 q q' rest some =>
      obtain ⟨here, later⟩ := List.forall_mem_cons.mp volumes
      have positive : 0 < (av.add q).totalVolume := by
        simp only [AggregateValues.add]
        omega
      obtain ⟨shrinks, bounds, attained⟩ := foldl_minPrice_pos positive later
      have first : (av.add q).minPrice = q.price := by simp [AggregateValues.add, zero]
      rw [first] at shrinks attained
      refine ⟨List.forall_mem_cons.mpr ⟨shrinks, bounds⟩, ?_⟩
      rcases attained with same | ⟨q'', member, same⟩
      · exact ⟨q, List.mem_cons_self, same.symm⟩
      · exact ⟨q'', List.mem_cons_of_mem q member, same⟩

theorem foldl_totalVolume (quotes : List Quote) (av : AggregateValues) :
    (quotes.foldl AggregateValues.add av).totalVolume = av.totalVolume + totalVolume quotes := by
  induction quotes generalizing av with
  | nil => simp [totalVolume]
  | cons q quotes ih =>
      rw [List.foldl_cons, ih]
      simp [AggregateValues.add, totalVolume, add_assoc]

theorem turnover_between {quotes : List Quote} {least greatest : ℤ}
    (volumes : ∀ q ∈ quotes, 0 ≤ q.volume) (least_le : ∀ q ∈ quotes, least ≤ q.price)
    (le_greatest : ∀ q ∈ quotes, q.price ≤ greatest) :
    least * totalVolume quotes ≤ turnover quotes ∧
      turnover quotes ≤ greatest * totalVolume quotes := by
  induction quotes with
  | nil => simp [totalVolume, turnover]
  | cons q quotes ih =>
      obtain ⟨here, later⟩ := List.forall_mem_cons.mp volumes
      obtain ⟨above, aboves⟩ := List.forall_mem_cons.mp least_le
      obtain ⟨below, belows⟩ := List.forall_mem_cons.mp le_greatest
      obtain ⟨lower, upper⟩ := ih later aboves belows
      simp only [totalVolume, turnover, List.map_cons, List.sum_cons, mul_add] at lower upper ⊢
      exact ⟨add_le_add (mul_le_mul_of_nonneg_right above here) lower,
        add_le_add (mul_le_mul_of_nonneg_right below here) upper⟩

theorem int64_tdiv_eq_iff {sum volume : ℤ} (nonneg : 0 ≤ sum) (positive : 0 < volume)
    (fits : volume < 2 ^ 63) :
    (int64 sum).tdiv volume = sum.tdiv volume ↔ sum < 2 ^ 63 := by
  constructor
  · intro same
    by_contra large
    rw [Int.tdiv_eq_ediv_of_nonneg nonneg] at same
    rcases le_or_gt 0 (int64 sum) with wrapped | wrapped
    · have less : int64 sum + 2 * volume ≤ sum := by
        unfold int64
        omega
      have quotients := Int.ediv_le_ediv positive less
      rw [Int.add_mul_ediv_right _ _ positive.ne', ← same,
        Int.tdiv_eq_ediv_of_nonneg wrapped] at quotients
      omega
    · have one : 1 ≤ sum / volume := (Int.le_ediv_iff_mul_le positive).mpr (by omega)
      have negative : (int64 sum).tdiv volume ≤ 0 := by
        rw [tdiv_of_nonpos wrapped.le]
        have := Int.ediv_nonneg (a := -int64 sum) (by omega) positive.le
        omega
      omega
  · intro small
    rw [int64_eq (by omega) small]

theorem turnover_single {quotes : List Quote} {price : ℤ} (same : ∀ q ∈ quotes, q.price = price) :
    turnover quotes = price * totalVolume quotes := by
  induction quotes with
  | nil => simp [totalVolume, turnover]
  | cons q quotes ih =>
      obtain ⟨rfl, later⟩ := List.forall_mem_cons.mp same
      have rest := ih later
      simp only [totalVolume, turnover, List.map_cons, List.sum_cons] at rest ⊢
      rw [rest, mul_add]

theorem price_eq {quotes : List Quote} {least greatest : ℤ} (single : least = greatest)
    (least_le : ∀ q ∈ quotes, least ≤ q.price) (le_greatest : ∀ q ∈ quotes, q.price ≤ greatest) :
    ∀ q ∈ quotes, q.price = least := by
  intro q member
  exact le_antisymm ((le_greatest q member).trans single.ge) (least_le q member)

structure Extremes (quotes : List Quote) (av : AggregateValues) : Prop where
  min_le : ∀ q ∈ counted quotes, av.minPrice ≤ q.price
  min_mem : ∃ q ∈ counted quotes, q.price = av.minPrice
  le_max : ∀ q ∈ quotes, q.price ≤ av.maxPrice
  max_mem : ∃ q ∈ quotes, q.price = av.maxPrice

theorem foldl_extremes {quotes : List Quote} (nonempty : quotes ≠ [])
    (prices : ∀ q ∈ quotes, 0 < q.price) (volumes : ∀ q ∈ quotes, 0 ≤ q.volume) :
    Extremes quotes (quotes.foldl AggregateValues.add {}) := by
  have start : ({} : AggregateValues).totalVolume = 0 := rfl
  obtain ⟨min_le, min_mem⟩ := foldl_minPrice start volumes nonempty
  obtain ⟨-, le_max, none | max_mem⟩ := foldl_maxPrice quotes {}
  · obtain ⟨q, member⟩ := List.exists_mem_of_ne_nil quotes nonempty
    have positive := prices q member
    have bound := le_max q member
    rw [none] at bound
    exact absurd positive (not_lt.mpr bound)
  · exact ⟨min_le, min_mem, le_max, max_mem⟩

theorem aggregate64_eq {quotes : List Quote} (volumes : ∀ q ∈ quotes, 0 ≤ q.volume)
    (fits : totalVolume quotes < 2 ^ 63) :
    aggregate64 quotes =
      let av := quotes.foldl AggregateValues.add {}
      if totalVolume quotes = 0 ∨ av.minPrice = av.maxPrice then { av with avgPrice := av.minPrice }
      else { av with avgPrice := (int64 (turnover quotes)).tdiv (totalVolume quotes) } := by
  have total := foldl_totalVolume quotes {}
  simp only [zero_add] at total
  unfold aggregate64
  have start : 0 ≤ ({} : AggregateValues).totalVolume := le_rfl
  simp only [foldl_add64 start volumes (by simpa using fits), sum64_eq, total]

theorem aggregate64_extremes {quotes : List Quote} (nonempty : quotes ≠ [])
    (prices : ∀ q ∈ quotes, 0 < q.price) (volumes : ∀ q ∈ quotes, 0 ≤ q.volume)
    (fits : totalVolume quotes < 2 ^ 63) : Extremes quotes (aggregate64 quotes) := by
  obtain ⟨min_le, min_mem, le_max, max_mem⟩ := foldl_extremes nonempty prices volumes
  rw [aggregate64_eq volumes fits]
  simp only
  split
  · exact ⟨min_le, min_mem, le_max, max_mem⟩
  · exact ⟨min_le, min_mem, le_max, max_mem⟩

theorem aggregate64_avgPrice {quotes : List Quote} (volumes : ∀ q ∈ quotes, 0 ≤ q.volume)
    (fits : totalVolume quotes < 2 ^ 63) :
    (aggregate64 quotes).avgPrice =
      if totalVolume quotes = 0 ∨ (aggregate64 quotes).minPrice = (aggregate64 quotes).maxPrice
      then (aggregate64 quotes).minPrice
      else (int64 (turnover quotes)).tdiv (totalVolume quotes) := by
  rw [aggregate64_eq volumes fits]
  simp only
  split <;> simp_all

theorem tdiv_between {quotes : List Quote} {least greatest : ℤ}
    (prices : ∀ q ∈ quotes, 0 < q.price) (volumes : ∀ q ∈ quotes, 0 ≤ q.volume)
    (positive : 0 < totalVolume quotes) (least_le : ∀ q ∈ quotes, least ≤ q.price)
    (le_greatest : ∀ q ∈ quotes, q.price ≤ greatest) :
    least ≤ (turnover quotes).tdiv (totalVolume quotes) ∧
      (turnover quotes).tdiv (totalVolume quotes) ≤ greatest := by
  obtain ⟨lower, upper⟩ := turnover_between volumes least_le le_greatest
  rw [Int.tdiv_eq_ediv_of_nonneg (turnover_nonneg prices volumes)]
  exact ⟨(Int.le_ediv_iff_mul_le positive).mpr lower,
    Int.ediv_le_of_le_mul positive upper⟩

theorem RightValues.of_exact {quotes : List Quote} (nonempty : quotes ≠ [])
    (prices : ∀ q ∈ quotes, 0 < q.price) (volumes : ∀ q ∈ quotes, 0 ≤ q.volume)
    (fits : totalVolume quotes < 2 ^ 63)
    (least : ∀ q ∈ quotes, ∃ q' ∈ counted quotes, q'.price ≤ q.price)
    (exact : (∃ price, ∀ q ∈ quotes, q.price = price) ∨ turnover quotes < 2 ^ 63) :
    RightValues quotes (aggregate64 quotes) := by
  obtain ⟨counted_le, ⟨cheapest, cheapestCounted, cheapestPrice⟩, le_max, dearest, dearestMember,
    dearestPrice⟩ := aggregate64_extremes nonempty prices volumes fits
  have avgPrice := aggregate64_avgPrice volumes fits
  generalize aggregate64 quotes = av at *
  have cheapestMember := (counted_sublist quotes).subset cheapestCounted
  have min_le : ∀ q ∈ quotes, av.minPrice ≤ q.price := by
    intro q member
    obtain ⟨q', counts, below⟩ := least q member
    exact (counted_le q' counts).trans below
  have min_le_max : av.minPrice ≤ av.maxPrice := by
    rw [← cheapestPrice]
    exact le_max cheapest cheapestMember
  have total := totalVolume_nonneg volumes
  have average : av.minPrice ≤ av.avgPrice ∧ av.avgPrice ≤ av.maxPrice ∧
      (0 < totalVolume quotes →
        av.avgPrice = (turnover quotes).tdiv (totalVolume quotes)) := by
    by_cases trivialCase : totalVolume quotes = 0 ∨ av.minPrice = av.maxPrice
    · rw [if_pos trivialCase] at avgPrice
      rw [avgPrice]
      refine ⟨le_rfl, min_le_max, fun positive => ?_⟩
      have single := trivialCase.resolve_left positive.ne'
      rw [turnover_single (price_eq single min_le le_max), Int.mul_tdiv_cancel _ positive.ne']
    · rw [if_neg trivialCase] at avgPrice
      obtain ⟨some, differ⟩ := not_or.mp trivialCase
      have positive : 0 < totalVolume quotes := by omega
      have small : turnover quotes < 2 ^ 63 := by
        refine exact.resolve_left ?_
        rintro ⟨price, same⟩
        exact differ (by rw [← cheapestPrice, ← dearestPrice, same cheapest cheapestMember,
          same dearest dearestMember])
      have nonneg := turnover_nonneg prices volumes
      rw [(int64_tdiv_eq_iff nonneg positive fits).mpr small] at avgPrice
      have between := tdiv_between prices volumes positive min_le le_max
      rw [avgPrice]
      exact ⟨between.1, between.2, fun _ => rfl⟩
  exact ⟨min_le, fun _ => ⟨cheapest, cheapestMember, cheapestPrice⟩, le_max,
    fun _ => ⟨dearest, dearestMember, dearestPrice⟩, average.1, average.2.1, average.2.2⟩

theorem RightValues.exact {quotes : List Quote} (nonempty : quotes ≠ [])
    (prices : ∀ q ∈ quotes, 0 < q.price) (volumes : ∀ q ∈ quotes, 0 ≤ q.volume)
    (fits : totalVolume quotes < 2 ^ 63) (right : RightValues quotes (aggregate64 quotes)) :
    (∀ q ∈ quotes, ∃ q' ∈ counted quotes, q'.price ≤ q.price) ∧
      ((∃ price, ∀ q ∈ quotes, q.price = price) ∨ turnover quotes < 2 ^ 63) := by
  obtain ⟨-, ⟨cheapest, cheapestCounted, cheapestPrice⟩, -, -⟩ :=
    aggregate64_extremes nonempty prices volumes fits
  have avgPrice := aggregate64_avgPrice volumes fits
  generalize aggregate64 quotes = av at *
  have least : ∀ q ∈ quotes, cheapest.price ≤ q.price := fun q member =>
    cheapestPrice.trans_le (right.min_le q member)
  refine ⟨fun q member => ⟨cheapest, cheapestCounted, least q member⟩, ?_⟩
  by_cases single : av.minPrice = av.maxPrice
  · exact .inl ⟨av.minPrice, price_eq single right.min_le right.le_max⟩
  · right
    by_cases some : totalVolume quotes = 0
    · have upper := (turnover_between volumes right.min_le right.le_max).2
      rw [some, mul_zero] at upper
      omega
    · have positive : 0 < totalVolume quotes := by
        have := totalVolume_nonneg volumes
        omega
      rw [if_neg (by simp [some, single]), right.average positive] at avgPrice
      exact (int64_tdiv_eq_iff (turnover_nonneg prices volumes) positive fits).mp avgPrice.symm

section
variable {Ptr : Type} (quote : Ptr → Quote) (used : Ptr → Bool)

/-- The values are right where some least price is among the quotes that decide `minPrice`, and the
prices are all the same or the sum of price times volume does not wrap. -/
theorem calculateAggregateValues64_right_iff (unusedOnly : Bool) (quoteVector : List Ptr)
    (prices : ∀ q ∈ considered quote used unusedOnly quoteVector, 0 < q.price)
    (volumes : ∀ q ∈ considered quote used unusedOnly quoteVector, 0 ≤ q.volume)
    (fits : totalVolume (considered quote used unusedOnly quoteVector) < 2 ^ 63) :
    RightValues (considered quote used unusedOnly quoteVector)
        (calculateAggregateValues64 quote used unusedOnly quoteVector) ↔
      (∀ q ∈ considered quote used unusedOnly quoteVector,
        ∃ q' ∈ counted (considered quote used unusedOnly quoteVector), q'.price ≤ q.price) ∧
      ((∃ price, ∀ q ∈ considered quote used unusedOnly quoteVector, q.price = price) ∨
        turnover (considered quote used unusedOnly quoteVector) < 2 ^ 63) := by
  unfold calculateAggregateValues64
  generalize considered quote used unusedOnly quoteVector = quotes at *
  constructor
  · intro right
    by_cases nonempty : quotes = []
    · subst nonempty
      exact ⟨by simp, .inr (by decide)⟩
    · exact right.exact nonempty prices volumes fits
  · rintro ⟨least, exact⟩
    by_cases nonempty : quotes = []
    · subst nonempty
      exact ⟨by simp, by simp, by simp, by simp, le_rfl, le_rfl, by decide⟩
    · exact RightValues.of_exact nonempty prices volumes fits least exact

end

def coinOffers : List Quote := [.of 60000000000 100000000, .of 60001000000 100000000]

theorem coinOffers_wrong :
    ¬ ∀ (quoteVector : List Quote) (used : Quote → Bool) (unusedOnly : Bool),
      (∀ q ∈ quoteVector, 0 < q.price) → (∀ q ∈ quoteVector, 0 ≤ q.volume) →
      totalVolume quoteVector < 2 ^ 63 →
      RightValues (considered id used unusedOnly quoteVector)
        (calculateAggregateValues64 id used unusedOnly quoteVector) := by
  intro right
  have average := (right coinOffers (fun _ => false) false (by decide) (by decide)
    (by decide)).min_le_avg
  revert average
  decide

def halfCoinOffers : List Quote := [.of 60001000000 50000000, .of 60000000000 50000000]

theorem halfCoinOffers_right :
    RightValues (considered id (fun _ => false) true halfCoinOffers)
      (calculateAggregateValues64 id (fun _ => false) true halfCoinOffers) :=
  (calculateAggregateValues64_right_iff id (fun _ => false) true halfCoinOffers (by decide)
    (by decide) (by decide)).mpr ⟨by decide, .inr (by decide)⟩

end SpotGridBot.Book
