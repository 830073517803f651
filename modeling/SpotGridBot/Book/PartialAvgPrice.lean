import SpotGridBot.Book.OrderBook
import SpotGridBot.Lib.RunningMean
import Mathlib.Algebra.Order.BigOperators.Group.List

namespace SpotGridBot.Book
open RunningMean

/-- The variables of the loop. `taken` and `covered`, which no function of the source has, are the
quotes with the volumes taken of them and whether the loop was left by its `break`. -/
structure PartialAverage (Ptr : Type*) where
  result : ℤ := 0
  aggregateVolume : ℤ := 0
  quoteCount : ℕ := 0
  volume : ℤ
  taken : List (Ptr × ℤ) := []
  covered : Bool := false

section
variable {Ptr : Type*} (quote : Ptr → Quote) (used : Ptr → Bool)

def PartialAverage.take (s : PartialAverage Ptr) (q : Ptr) (currentVolume : ℤ) :
    PartialAverage Ptr :=
  let aggregateVolume := s.aggregateVolume + currentVolume
  { s with
    aggregateVolume := aggregateVolume
    result := s.result + (((quote q).price - s.result) * currentVolume).tdiv aggregateVolume
    quoteCount := s.quoteCount + 1
    volume := s.volume - currentVolume
    taken := s.taken ++ [(q, currentVolume)] }

def PartialAverage.loop (s : PartialAverage Ptr) : List Ptr → PartialAverage Ptr
  | [] => s
  | q :: quotes =>
      if used q = false ∧ s.volume ≥ (quote q).minQty then
        let currentVolume := min (quote q).volume s.volume
        if currentVolume > 0 then
          let s := s.take quote q currentVolume
          if s.volume ≤ 0 then { s with covered := true } else s.loop quotes
        else s.loop quotes
      else s.loop quotes

def partialAverage (volume : ℤ) (quotes : List Ptr) : PartialAverage Ptr :=
  let s : PartialAverage Ptr := { volume := volume }
  if volume > 0 then s.loop quote used quotes else s

def partialAvgPrice (volume : ℤ) (quotes : List Ptr) : ℤ × ℕ :=
  let s := partialAverage quote used volume quotes
  (s.result, s.quoteCount)

end

namespace PartialAverage
variable {Ptr : Type*} {quote : Ptr → Quote} {used : Ptr → Bool} {volume : ℤ}
  {s : PartialAverage Ptr}

def takenVolume (s : PartialAverage Ptr) : ℤ := (s.taken.map Prod.snd).sum

def takenValue (quote : Ptr → Quote) (s : PartialAverage Ptr) : ℤ :=
  (s.taken.map fun t => (quote t.1).price * t.2).sum

structure Averaging (quote : Ptr → Quote) (used : Ptr → Bool) (volume : ℤ) (seen : List Ptr)
    (s : PartialAverage Ptr) : Prop where
  count : s.quoteCount = s.taken.length
  aggregate : s.aggregateVolume = s.takenVolume
  shared : s.takenVolume + s.volume = volume
  left : 0 ≤ s.volume
  order : (s.taken.map Prod.fst).Sublist (seen.filter fun q => !used q)
  volumes : ∀ t ∈ s.taken, 0 < t.2 ∧ t.2 ≤ (quote t.1).volume
  none : s.taken = [] → s.result = 0
  above : s.taken ≠ [] → ∃ t ∈ s.taken, (quote t.1).price ≤ s.result
  below : s.taken ≠ [] → ∃ t ∈ s.taken, s.result ≤ (quote t.1).price
  error : s.taken ≠ [] →
    |s.result * s.takenVolume - s.takenValue quote| < s.quoteCount * s.takenVolume
  done : s.covered = true → s.volume = 0

theorem take_result (q : Ptr) (currentVolume : ℤ) :
    (s.take quote q currentVolume).result =
      update s.result s.aggregateVolume (quote q).price currentVolume := rfl

theorem Averaging.takenVolume_nonneg {seen : List Ptr}
    (averaging : Averaging quote used volume seen s) : 0 ≤ s.takenVolume := by
  refine List.sum_nonneg ?_
  simp only [List.mem_map, forall_exists_index, and_imp, forall_apply_eq_imp_iff₂]
  exact fun t member => (averaging.volumes t member).1.le

theorem Averaging.error_le {seen : List Ptr} (averaging : Averaging quote used volume seen s) :
    |s.result * s.takenVolume - s.takenValue quote| ≤ s.quoteCount * s.takenVolume := by
  by_cases empty : s.taken = []
  · simp [takenVolume, takenValue, empty]
  · exact (averaging.error empty).le

theorem Averaging.more {seen : List Ptr} (averaging : Averaging quote used volume seen s)
    (rest : List Ptr) : Averaging quote used volume (seen ++ rest) s :=
  { averaging with
    order := averaging.order.trans ((List.sublist_append_left seen rest).filter _) }

theorem Averaging.take_between {seen : List Ptr} {q : Ptr} {currentVolume : ℤ}
    (averaging : Averaging quote used volume seen s) (positive : 0 < currentVolume) :
    let after := s.take quote q currentVolume
    (∃ t ∈ after.taken, (quote t.1).price ≤ after.result) ∧
      ∃ t ∈ after.taken, after.result ≤ (quote t.1).price := by
  have last : (q, currentVolume) ∈ (s.take quote q currentVolume).taken :=
    List.mem_append_right _ List.mem_cons_self
  have old : ∀ t ∈ s.taken, t ∈ (s.take quote q currentVolume).taken :=
    fun t member => List.mem_append_left _ member
  have weight := averaging.takenVolume_nonneg
  simp only [take_result, averaging.aggregate]
  by_cases first : s.taken = []
  · have same : update s.result s.takenVolume (quote q).price currentVolume = (quote q).price := by
      rw [averaging.none first, takenVolume, first]
      exact update_first positive
    rw [same]
    exact ⟨⟨_, last, le_rfl⟩, _, last, le_rfl⟩
  · obtain ⟨low, lowTaken, lowBound⟩ := averaging.above first
    obtain ⟨high, highTaken, highBound⟩ := averaging.below first
    rcases le_total s.result (quote q).price with below | above
    · have between := update_of_le weight positive below
      exact ⟨⟨low, old low lowTaken, lowBound.trans between.1⟩, _, last, between.2⟩
    · have between := update_of_ge weight positive above
      exact ⟨⟨_, last, between.1⟩, high, old high highTaken, between.2.trans highBound⟩

theorem Averaging.take {seen : List Ptr} {q : Ptr} {currentVolume : ℤ}
    (averaging : Averaging quote used volume seen s) (free : used q = false)
    (positive : 0 < currentVolume) (fromQuote : currentVolume ≤ (quote q).volume)
    (wanted : currentVolume ≤ s.volume) :
    Averaging quote used volume (seen ++ [q]) (s.take quote q currentVolume) := by
  have weight : (s.take quote q currentVolume).takenVolume = s.takenVolume + currentVolume := by
    simp [takenVolume, PartialAverage.take]
  have value : (s.take quote q currentVolume).takenValue quote =
      s.takenValue quote + (quote q).price * currentVolume := by
    simp [takenValue, PartialAverage.take]
  have between := averaging.take_between (q := q) positive
  refine ⟨?_, ?_, ?_, ?_, ?_, ?_, ?_, fun _ => between.1, fun _ => between.2, ?_, ?_⟩
  · simp [PartialAverage.take, averaging.count]
  · rw [weight, ← averaging.aggregate]
    rfl
  · have shared := averaging.shared
    rw [weight]
    simp only [PartialAverage.take]
    omega
  · simpa [PartialAverage.take] using wanted
  · simpa [PartialAverage.take, free] using averaging.order.append_right [q]
  · exact List.forall_mem_append.mpr ⟨averaging.volumes, by simpa using ⟨positive, fromQuote⟩⟩
  · simp [PartialAverage.take]
  · intro _
    have bound := update_error (x := (quote q).price) averaging.takenVolume_nonneg positive
      averaging.error_le (Nat.cast_nonneg _)
    rw [weight, value, take_result, averaging.aggregate]
    simpa [PartialAverage.take] using bound
  · intro covered
    have finished : s.volume = 0 := averaging.done covered
    omega

theorem Averaging.loop {seen : List Ptr} (averaging : Averaging quote used volume seen s)
    (quotes : List Ptr) :
    Averaging quote used volume (seen ++ quotes) (s.loop quote used quotes) := by
  induction quotes generalizing seen s with
  | nil => simpa [PartialAverage.loop] using averaging
  | cons q quotes ih =>
      have skipped : Averaging quote used volume (seen ++ q :: quotes)
          (s.loop quote used quotes) := by
        have later := ih (averaging.more [q])
        rwa [List.append_assoc] at later
      unfold PartialAverage.loop
      split
      next considered =>
        simp only
        split
        next positive =>
          have taken := averaging.take considered.1 positive (min_le_left _ _) (min_le_right _ _)
          split
          next reached =>
            have rest := taken.more quotes
            rw [List.append_assoc] at rest
            exact { rest with done := fun _ => le_antisymm reached rest.left }
          next =>
            have later := ih taken
            rwa [List.append_assoc] at later
        next => exact skipped
      next => exact skipped

theorem partialAverage_averaging (positive : 0 < volume) (quotes : List Ptr) :
    Averaging quote used volume quotes (partialAverage quote used volume quotes) := by
  have start : Averaging quote used volume [] ({ volume := volume } : PartialAverage Ptr) :=
    ⟨rfl, rfl, by simp [takenVolume], positive.le, List.Sublist.refl _, by simp, fun _ => rfl,
      by simp, by simp, by simp, nofun⟩
  unfold partialAverage
  rw [if_pos positive]
  exact start.loop quotes

/-- The result lies between the prices used and within `k` of their exact average, where `k` is the
number of quotes used. -/
theorem partialAvgPrice_near (quote : Ptr → Quote) (used : Ptr → Bool) (volume : ℤ)
    (positive : 0 < volume) (quotes : List Ptr) :
    let s := partialAverage quote used volume quotes
    let k := (partialAvgPrice quote used volume quotes).2
    let result := (partialAvgPrice quote used volume quotes).1
    s.taken.length = k ∧ (s.taken.map Prod.fst).Sublist (quotes.filter fun q => !used q) ∧
    (∀ t ∈ s.taken, 0 < t.2 ∧ t.2 ≤ (quote t.1).volume) ∧
    s.takenVolume ≤ volume ∧ (s.covered = true → s.takenVolume = volume) ∧
    (k = 0 → result = 0) ∧
    (0 < k → (∃ t ∈ s.taken, (quote t.1).price ≤ result) ∧
      (∃ t ∈ s.taken, result ≤ (quote t.1).price) ∧
      |(result : ℚ) - s.takenValue quote / s.takenVolume| < k) := by
  have averaging : Averaging quote used volume quotes (partialAverage quote used volume quotes) :=
    partialAverage_averaging positive quotes
  have count := averaging.count
  have shared := averaging.shared
  have left := averaging.left
  refine ⟨count.symm, averaging.order, averaging.volumes, by omega, ?_, ?_, ?_⟩
  · intro covered
    have finished := averaging.done covered
    omega
  · intro zero
    exact averaging.none (List.length_eq_zero_iff.mp (count.symm.trans zero))
  · intro some
    have nonempty : (partialAverage quote used volume quotes).taken ≠ [] :=
      List.ne_nil_of_length_pos (count ▸ some)
    have error := averaging.error nonempty
    have weight : 0 < (partialAverage quote used volume quotes).takenVolume :=
      pos_of_mul_pos_right ((abs_nonneg _).trans_lt error) (Nat.cast_nonneg _)
    refine ⟨averaging.above nonempty, averaging.below nonempty, ?_⟩
    exact_mod_cast error_div weight error

theorem partialAvgPrice_near_two :
    let quotes : List Quote := [.of 100 2, .of 99 5]
    let s := partialAverage id (fun _ => false) 5 quotes
    let k := (partialAvgPrice id (fun _ => false) 5 quotes).2
    let result := (partialAvgPrice id (fun _ => false) 5 quotes).1
    s.taken.length = k ∧ (s.taken.map Prod.fst).Sublist (quotes.filter fun _ => !false) ∧
    (∀ t ∈ s.taken, 0 < t.2 ∧ t.2 ≤ t.1.volume) ∧
    s.takenVolume ≤ 5 ∧ (s.covered = true → s.takenVolume = 5) ∧
    (k = 0 → result = 0) ∧
    (0 < k → (∃ t ∈ s.taken, t.1.price ≤ result) ∧ (∃ t ∈ s.taken, result ≤ t.1.price) ∧
      |(result : ℚ) - s.takenValue id / s.takenVolume| < k) :=
  partialAvgPrice_near id (fun _ => false) 5 (by decide) [.of 100 2, .of 99 5]

end PartialAverage

end SpotGridBot.Book
