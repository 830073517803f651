import SpotGridBot.Utils.CurrencyPair
import SpotGridBot.Lib.OrderedMap

namespace SpotGridBot.Utils
open OrderedMap

namespace CurrencyPair

theorem lt_irrefl (a : CurrencyPair) : a.lt a = false := by
  unfold lt
  split_ifs <;> simp

theorem lt_trans (a b c : CurrencyPair) (below : a.lt b = true) (below' : b.lt c = true) :
    a.lt c = true := by
  obtain ⟨⟨base⟩, ⟨quote⟩⟩ := a
  obtain ⟨⟨base'⟩, ⟨quote'⟩⟩ := b
  obtain ⟨⟨base''⟩, ⟨quote''⟩⟩ := c
  by_cases valid : CurrencyPair.Valid ⟨⟨base⟩, ⟨quote⟩⟩
  all_goals
    simp only [lt, valid, true_and, false_and, if_false, Currency.mk.injEq] at below below' ⊢
    split_ifs at below below' ⊢ <;> simp only [decide_eq_true_eq] at below below' ⊢ <;> omega

def UnderInvalid (a b : CurrencyPair) : Prop :=
  b.quoteCCY.Invalid ∧ a.quoteCCY.value < Currency.invalid.value

/-- What tells two different pairs of one base currency apart: they are valid, or one of them is and
`INVALID` is above it as the quote currency of the other. -/
def Apart (a b : CurrencyPair) : Prop :=
  a.baseCCY = b.baseCCY →
    a.Valid ∧ b.Valid ∨ a.Valid ∧ UnderInvalid a b ∨ b.Valid ∧ UnderInvalid b a

instance (a b : CurrencyPair) : Decidable (UnderInvalid a b) :=
  inferInstanceAs (Decidable (_ ∧ _))
instance (a b : CurrencyPair) : Decidable (Apart a b) := inferInstanceAs (Decidable (_ → _))

def Below (pairs : Set CurrencyPair) (a b : pairs) : Prop := a.1.lt b.1 = true

theorem lt_of_base_ne {a b : CurrencyPair} (differ : a.baseCCY ≠ b.baseCCY) :
    a.lt b = decide (a.baseCCY.value < b.baseCCY.value) := by
  unfold lt
  rw [if_neg fun same => differ same.2]

theorem lt_of_valid {a b : CurrencyPair} (same : a.baseCCY = b.baseCCY) (valid : a.Valid) :
    a.lt b = decide (a.quoteCCY.value < b.quoteCCY.value) := by
  unfold lt
  rw [if_pos ⟨valid, same⟩]

theorem lt_of_not_valid {a b : CurrencyPair} (same : a.baseCCY = b.baseCCY)
    (notValid : ¬ a.Valid) : a.lt b = false := by
  unfold lt
  rw [if_neg fun both => notValid both.1, same]
  simp

theorem lt_iff_underInvalid {a b : CurrencyPair} (same : a.baseCCY = b.baseCCY) (valid : a.Valid)
    (notValid : ¬ b.Valid) : a.lt b = true ↔ UnderInvalid a b := by
  have quote : ¬ b.quoteCCY.Valid := fun quote => notValid ⟨same ▸ valid.1, quote⟩
  rw [lt_of_valid same valid, decide_eq_true_eq]
  unfold UnderInvalid
  by_cases invalid : b.quoteCCY.Invalid
  · have top : b.quoteCCY = Currency.invalid := invalid
    rw [top]
    exact (and_iff_right rfl).symm
  · have none : b.quoteCCY = Currency.none := by
      by_contra nonempty
      exact quote ⟨nonempty, invalid⟩
    rw [none] at invalid ⊢
    exact iff_of_false (Nat.not_lt_zero _) fun here => invalid here.1

theorem comparable_iff_apart {a b : CurrencyPair} (differ : a ≠ b) :
    Comparable lt a b ↔ Apart a b := by
  unfold Comparable Apart
  by_cases same : a.baseCCY = b.baseCCY
  swap
  · have values : a.baseCCY.value ≠ b.baseCCY.value := fun value =>
      same (congrArg Currency.mk value)
    rw [lt_of_base_ne same, lt_of_base_ne (Ne.symm same), decide_eq_true_eq, decide_eq_true_eq]
    exact iff_of_true (Nat.lt_or_gt_of_ne values) fun here => absurd here same
  by_cases valid : a.Valid
  · by_cases valid' : b.Valid
    · have values : a.quoteCCY.value ≠ b.quoteCCY.value := fun value =>
        differ (congrArg₂ CurrencyPair.mk same (congrArg Currency.mk value))
      rw [lt_of_valid same valid, lt_of_valid same.symm valid', decide_eq_true_eq,
        decide_eq_true_eq]
      exact iff_of_true (Nat.lt_or_gt_of_ne values) fun _ => .inl ⟨valid, valid'⟩
    · rw [lt_iff_underInvalid same valid valid', lt_of_not_valid same.symm valid']
      simp [same, valid, valid']
  · by_cases valid' : b.Valid
    · rw [lt_iff_underInvalid same.symm valid' valid, lt_of_not_valid same valid]
      simp [same, valid, valid']
    · rw [lt_of_not_valid same valid, lt_of_not_valid same.symm valid']
      simp [same, valid, valid']

theorem pairwise_comparable_iff (pairs : Set CurrencyPair) :
    pairs.Pairwise (Comparable lt) ↔ pairs.Pairwise Apart := by
  constructor
  · intro comparable a inside b inside' differ
    exact (comparable_iff_apart differ).mp (comparable inside inside' differ)
  · intro apart a inside b inside' differ
    exact (comparable_iff_apart differ).mpr (apart inside inside' differ)

/-- Among these pairs `operator<` is a strict weak order that leaves only equal pairs incomparable,
if and only if any two different ones of them are apart. -/
theorem strictWeakOrder_iff_apart (pairs : Set CurrencyPair) :
    IsStrictWeakOrder pairs (Below pairs) ∧ Std.Trichotomous (Below pairs) ↔
      pairs.Pairwise Apart := by
  rw [← pairwise_comparable_iff]
  constructor
  · rintro ⟨-, total⟩ a inside b inside' differ
    by_contra apart
    obtain ⟨notBelow, notAbove⟩ := not_or.mp apart
    have same := total.trichotomous ⟨a, inside⟩ ⟨b, inside'⟩ notBelow notAbove
    exact differ (congrArg Subtype.val same)
  · intro comparable
    have same : ∀ a b : pairs, ¬ Below pairs a b → ¬ Below pairs b a → a = b := by
      intro a b notBelow notAbove
      by_contra differ
      rcases comparable a.2 b.2 (Subtype.coe_ne_coe.mpr differ) with below | above
      · exact notBelow below
      · exact notAbove above
    have irrefl : ∀ a : pairs, ¬ Below pairs a a := fun a => Bool.eq_false_iff.mp (lt_irrefl a.1)
    refine ⟨{ irrefl, trans := fun a b c => lt_trans a.1 b.1 c.1, incomp_trans := ?_ }, ⟨same⟩⟩
    -- Two incomparable pairs are one pair, so there is nothing left to be passed on.
    rintro a b c ⟨notBelow, notAbove⟩ apart
    obtain rfl := same a b notBelow notAbove
    exact apart

theorem half_empty_pair_beside_both :
    ¬ IsStrictWeakOrder CurrencyPair (fun a b => a.lt b = true) ∧
      ¬ Std.Trichotomous fun a b : CurrencyPair => a.lt b = true := by
  constructor
  · intro weak
    have beside := weak.incomp_trans ⟨.eur, .usd⟩ ⟨.eur, .none⟩ ⟨.eur, ⟨3⟩⟩ (by decide) (by decide)
    exact absurd beside (by decide)
  · intro total
    have same := total.trichotomous ⟨.eur, .usd⟩ ⟨.eur, .none⟩ (by decide) (by decide)
    exact absurd same (by decide)

theorem valid_apart : { cp : CurrencyPair | cp.Valid }.Pairwise Apart :=
  fun _ valid _ valid' _ _ => .inl ⟨valid, valid'⟩

end CurrencyPair

end SpotGridBot.Utils
