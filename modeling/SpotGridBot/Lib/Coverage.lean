import Mathlib.Data.Int.Order.Basic
import Mathlib.Data.List.Basic

namespace SpotGridBot.Coverage
variable {α : Type*} (first last : α → ℤ) {lo hi : ℤ} {rs : List α} {r : α}

def Covers (lo hi : ℤ) (rs : List α) : Prop :=
  ∀ id, lo < id → id ≤ hi → ∃ r ∈ rs, first r ≤ id ∧ id ≤ last r

def Gapless (lo : ℤ) (rs : List α) : Prop :=
  ∀ earlier r, earlier ++ [r] <+: rs → Covers first last lo (last r) (earlier ++ [r])

theorem gapless_nil : Gapless first last lo [] := by
  intro earlier r isPrefix
  have empty := List.prefix_nil.mp isPrefix
  simp at empty

variable {first last}

theorem Gapless.of_prefix {rs' : List α} (gapless : Gapless first last lo rs)
    (earlier : rs' <+: rs) : Gapless first last lo rs' :=
  fun before r isPrefix => gapless before r (isPrefix.trans earlier)

theorem gapless_concat : Gapless first last lo (rs ++ [r]) ↔
    Gapless first last lo rs ∧ Covers first last lo (last r) (rs ++ [r]) := by
  constructor
  · intro gapless
    exact ⟨gapless.of_prefix (List.prefix_append rs [r]), gapless rs r List.prefix_rfl⟩
  · rintro ⟨gapless, covers⟩ earlier r' isPrefix
    rcases List.prefix_concat_iff.mp isPrefix with whole | shorter
    · obtain ⟨rfl, same⟩ := List.append_inj' whole rfl
      obtain rfl := List.singleton_inj.mp same
      exact covers
    · exact gapless earlier r' shorter

theorem covers_self : Covers first last lo lo rs := by
  intro id above below
  omega

theorem Covers.concat (covers : Covers first last lo hi rs) (joins : first r ≤ hi + 1) :
    Covers first last lo (last r) (rs ++ [r]) := by
  intro id above below
  by_cases old : id ≤ hi
  · obtain ⟨r', member, within⟩ := covers id above old
    exact ⟨r', List.mem_append_left _ member, within⟩
  · exact ⟨r, by simp, by omega, below⟩

theorem not_covers_concat (covered : ∀ r ∈ rs, last r ≤ hi) (above : lo ≤ hi)
    (skips : hi + 1 < first r) (reaches : hi + 1 ≤ last r) :
    ¬ Covers first last lo (last r) (rs ++ [r]) := by
  intro covers
  obtain ⟨r', member, starts, ends⟩ := covers (hi + 1) (by omega) reaches
  rcases List.mem_append.mp member with old | new
  · have bound := covered r' old
    omega
  · obtain rfl := List.mem_singleton.mp new
    omega

end SpotGridBot.Coverage
