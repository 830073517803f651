import SpotGridBot.Feed.PriceLevels
import SpotGridBot.Book.Frame
import SpotGridBot.Lib.Keyed

/-!
# The live levels

Between the meaning of a feed and the book stands the list of the levels that are there, each with
the key it was published with.
-/

namespace SpotGridBot.Feed
open Utils Book

structure Slot (reg : Registry) where
  message : LevelMessage reg
  key : ℤ

namespace Slot
variable {reg : Registry} (slot : Slot reg)

def id : String := slot.message.id
def info : QuoteInfo := ⟨slot.key, slot.message.cp, slot.message.type⟩

def isOn (cp : CurrencyPair) (bid : Bool) (slot : Slot reg) : Bool :=
  slot.message.cp == cp && slot.message.bid == bid

def level : ℤ × ℤ × ℤ :=
  (slot.key, reg.dblToCpip64 slot.message.cp slot.message.price,
    reg.doubleToQty64 slot.message.cp slot.message.size)

end Slot

def quoteLevel (quote : Quote) : ℤ × ℤ × ℤ := (quote.key, quote.price, quote.volume)

section Holds
variable {reg : Registry} {s : ConnectionBaseMD} {slots : List (Slot reg)}

structure Holds (s : ConnectionBaseMD) (slots : List (Slot reg)) : Prop where
  nonneg : 0 ≤ s.lastKey
  ids : (slots.map Slot.id).Nodup
  keys : (slots.map Slot.key).Nodup
  taken : ∀ slot ∈ slots, 0 < slot.key ∧ slot.key ≤ s.lastKey
  table : ∀ id info, s.activeQuoteTable id = some info ↔
    ∃ slot ∈ slots, slot.id = id ∧ slot.info = info
  keyed : s.orderBook.Keyed { cp | cp.Valid }
  quotes : ∀ cp, cp.Valid → ∀ bid, ((s.orderBook.quotes cp bid).map quoteLevel).Perm
    ((slots.filter (Slot.isOn cp bid)).map Slot.level)

def others (slots : List (Slot reg)) (m : LevelMessage reg) : List (Slot reg) :=
  slots.filter fun slot => slot.id != m.id

def slotsAfter (slots : List (Slot reg)) (m : LevelMessage reg) (key : ℤ) : List (Slot reg) :=
  if m.size = 0 then others slots m else ⟨m, key⟩ :: others slots m

theorem newInt64Key_eq {lastKey : ℤ} (nonneg : 0 ≤ lastKey) : newInt64Key lastKey = lastKey + 1 :=
  if_pos nonneg

theorem mem_others {m : LevelMessage reg} {slot : Slot reg} :
    slot ∈ others slots m ↔ slot ∈ slots ∧ slot.id ≠ m.id := by
  simp [others]

theorem others_eq_self {m : LevelMessage reg} (holds : Holds s slots)
    (unknown : s.activeQuoteTable m.id = none) : others slots m = slots := by
  apply List.filter_eq_self.mpr
  intro slot member
  have other : slot.id ≠ m.id := by
    intro same
    have present := (holds.table m.id slot.info).mpr ⟨slot, member, same, rfl⟩
    rw [unknown] at present
    contradiction
  simpa using other

theorem others_eq_filter_key {m : LevelMessage reg} (holds : Holds s slots) {info : QuoteInfo}
    (found : s.activeQuoteTable m.id = some info) :
    others slots m = slots.filter fun slot => slot.level.1 != info.key := by
  obtain ⟨old, oldMember, oldId, rfl⟩ := (holds.table m.id info).mp found
  apply List.filter_congr
  intro slot member
  have same : slot.id = m.id ↔ slot.level.1 = old.info.key := by
    constructor
    · intro same
      rw [List.inj_on_of_nodup_map holds.ids member oldMember (same.trans oldId.symm)]
      rfl
    · intro same
      rw [List.inj_on_of_nodup_map holds.keys member oldMember same, oldId]
  simp only [bne, beq_eq_decide, same]

theorem erased_perm {m : LevelMessage reg} (holds : Holds s slots) (key : ℤ) :
    ((eraseReferred id (m.quote key (refKey s m) (updateType s m))
        (s.orderBook.quotes m.cp m.bid)).map quoteLevel).Perm
      (((others slots m).filter (Slot.isOn m.cp m.bid)).map Slot.level) := by
  have own := holds.quotes m.cp m.cp_valid m.bid
  cases old : s.activeQuoteTable m.id with
  | none =>
      have noReference : refKey s m = 0 := by simp [refKey, old]
      rw [others_eq_self holds old, eraseReferred_eq_self noReference]
      exact own
  | some info =>
      obtain ⟨slot, member, -, rfl⟩ := (holds.table m.id info).mp old
      have refers : refKey s m = slot.info.key := by simp [refKey, old]
      have replaces : updateType s m = qtDelete ∨ updateType s m = qtUpdate := by
        unfold updateType
        by_cases gone : m.size = 0
        · exact .inl (if_pos gone)
        · exact .inr (by simp [gone, old])
      rw [refers, eraseReferred_eq (holds.taken slot member).1 replaces,
        others_eq_filter_key holds old, List.filter_comm]
      apply Keyed.perm_eraseP own
      exact holds.keys.sublist (List.filter_sublist.map Slot.key)

theorem others_isOn {m : LevelMessage reg} (consistent : reg.Consistent) {cp : CurrencyPair}
    {bid : Bool} (elsewhere : ¬ (cp = m.cp ∧ bid = m.bid)) :
    (others slots m).filter (Slot.isOn cp bid) = slots.filter (Slot.isOn cp bid) := by
  unfold others
  rw [List.filter_filter]
  apply List.filter_congr
  intro slot member
  by_cases same : slot.id = m.id
  · obtain ⟨cps, bids, -⟩ := LevelMessage.id_injective consistent same
    have apart : slot.isOn cp bid = false := by
      unfold Slot.isOn
      rw [cps, bids]
      by_contra on
      simp only [Bool.not_eq_false, Bool.and_eq_true, beq_iff_eq] at on
      exact elsewhere ⟨on.1.symm, on.2.symm⟩
    simp [apart]
  · simp [same]

theorem holds_newKey (holds : Holds s slots) :
    Holds { s with lastKey := newInt64Key s.lastKey } slots := by
  have later := newInt64Key_eq holds.nonneg
  refine ⟨?_, holds.ids, holds.keys, ?_, holds.table, holds.keyed, holds.quotes⟩
  · have nonneg := holds.nonneg
    change 0 ≤ newInt64Key s.lastKey
    omega
  · intro slot member
    obtain ⟨positive, bound⟩ := holds.taken slot member
    change 0 < slot.key ∧ slot.key ≤ newInt64Key s.lastKey
    omega

theorem mem_slotsAfter {m : LevelMessage reg} {key : ℤ} {slot : Slot reg}
    (member : slot ∈ slotsAfter slots m key) :
    (slot = ⟨m, key⟩ ∧ m.size ≠ 0) ∨ (slot ∈ slots ∧ slot.id ≠ m.id) := by
  unfold slotsAfter at member
  split at member
  next gone => exact .inr (mem_others.mp member)
  next kept =>
    rcases List.mem_cons.mp member with new | old
    · exact .inl ⟨new, kept⟩
    · exact .inr (mem_others.mp old)

theorem mem_slotsAfter_of_mem {m : LevelMessage reg} {slot : Slot reg} (member : slot ∈ slots)
    (other : slot.id ≠ m.id) (key : ℤ) : slot ∈ slotsAfter slots m key := by
  have kept := mem_others.mpr ⟨member, other⟩
  unfold slotsAfter
  split
  · exact kept
  · exact List.mem_cons_of_mem _ kept

theorem nodup_slotsAfter {α : Type} {field : Slot reg → α} (distinct : (slots.map field).Nodup)
    {m : LevelMessage reg} {key : ℤ} (new : ∀ slot ∈ others slots m, field slot ≠ field ⟨m, key⟩) :
    ((slotsAfter slots m key).map field).Nodup := by
  have rest : ((others slots m).map field).Nodup := distinct.sublist (List.filter_sublist.map field)
  unfold slotsAfter
  split
  · exact rest
  · apply List.nodup_cons.mpr ⟨_, rest⟩
    intro present
    obtain ⟨slot, member, same⟩ := List.mem_map.mp present
    exact new slot member same

theorem taken_slotsAfter {m : LevelMessage reg} (holds : Holds s slots) {slot : Slot reg}
    (member : slot ∈ slotsAfter slots m (newInt64Key s.lastKey)) :
    0 < slot.key ∧ slot.key ≤ newInt64Key s.lastKey := by
  have later := newInt64Key_eq holds.nonneg
  have nonneg := holds.nonneg
  rcases mem_slotsAfter member with ⟨rfl, -⟩ | ⟨old, -⟩
  · change 0 < newInt64Key s.lastKey ∧ newInt64Key s.lastKey ≤ newInt64Key s.lastKey
    omega
  · have bounds := holds.taken slot old
    omega

theorem table_slotsAfter {m : LevelMessage reg} (holds : Holds s slots) (id : String)
    (info : QuoteInfo) :
    (edited s m).activeQuoteTable id = some info ↔
      ∃ slot ∈ slotsAfter slots m (newInt64Key s.lastKey), slot.id = id ∧ slot.info = info := by
  change Function.update s.activeQuoteTable m.id _ id = some info ↔ _
  by_cases here : id = m.id
  · subst here
    rw [Function.update_self]
    constructor
    · intro found
      split at found
      next gone => contradiction
      next kept =>
        have new : slotsAfter slots m (newInt64Key s.lastKey) = _ := if_neg kept
        rw [new]
        exact ⟨_, List.mem_cons_self, rfl, Option.some.inj found⟩
    · rintro ⟨slot, member, same, rfl⟩
      rcases mem_slotsAfter member with ⟨rfl, kept⟩ | ⟨-, other⟩
      · exact if_neg kept
      · exact absurd same other
  · rw [Function.update_of_ne here, holds.table]
    constructor
    · rintro ⟨slot, member, rfl, rfl⟩
      exact ⟨slot, mem_slotsAfter_of_mem member here _, rfl, rfl⟩
    · rintro ⟨slot, member, rfl, rfl⟩
      rcases mem_slotsAfter member with ⟨rfl, -⟩ | ⟨old, -⟩
      · exact absurd rfl here
      · exact ⟨slot, old, rfl, rfl⟩

theorem slotsAfter_isOn {m : LevelMessage reg} (consistent : reg.Consistent) {cp : CurrencyPair}
    {bid : Bool} (elsewhere : ¬ (cp = m.cp ∧ bid = m.bid)) (key : ℤ) :
    (slotsAfter slots m key).filter (Slot.isOn cp bid) = slots.filter (Slot.isOn cp bid) := by
  have apart : ¬ (⟨m, key⟩ : Slot reg).isOn cp bid = true := by
    intro on
    simp only [Slot.isOn, Bool.and_eq_true, beq_iff_eq] at on
    exact elsewhere ⟨on.1.symm, on.2.symm⟩
  unfold slotsAfter
  split
  · exact others_isOn consistent elsewhere
  · rw [List.filter_cons_of_neg apart, others_isOn consistent elsewhere]

theorem quotes_here {m : LevelMessage reg} (holds : Holds s slots) :
    (((edited s m).orderBook.quotes m.cp m.bid).map quoteLevel).Perm
      (((slotsAfter slots m (newInt64Key s.lastKey)).filter (Slot.isOn m.cp m.bid)).map
        Slot.level) := by
  change (((s.orderBook.addQuote m.cp m.bid _).quotes m.cp m.bid).map quoteLevel).Perm _
  rw [OrderBook.quotes_addQuote CurrencyPair.valid_apart holds.keyed m.cp_valid m.cp_valid,
    if_pos ⟨rfl, rfl⟩]
  have erased := erased_perm (m := m) holds (newInt64Key s.lastKey)
  unfold slotsAfter
  by_cases gone : m.size = 0
  · have delete : (m.quote (newInt64Key s.lastKey) (refKey s m) (updateType s m)).quoteType =
        qtDelete := if_pos gone
    rw [if_pos gone, updateVec_eq, if_pos delete]
    exact erased
  · have kept : updateType s m ≠ qtDelete := by
      unfold updateType
      rw [if_neg gone]
      split <;> decide
    have own : (⟨m, newInt64Key s.lastKey⟩ : Slot reg).isOn m.cp m.bid = true := by
      simp [Slot.isOn]
    rw [if_neg gone, List.filter_cons_of_pos own]
    exact ((updateVec_perm kept m.bid _).map quoteLevel).trans (erased.cons _)

theorem holds_edited {m : LevelMessage reg} (consistent : reg.Consistent) (holds : Holds s slots) :
    Holds (edited s m) (slotsAfter slots m (newInt64Key s.lastKey)) := by
  have later := newInt64Key_eq holds.nonneg
  have nonneg := holds.nonneg
  constructor
  · change 0 ≤ newInt64Key s.lastKey
    omega
  · apply nodup_slotsAfter holds.ids
    intro slot member
    exact (mem_others.mp member).2
  · apply nodup_slotsAfter holds.keys
    intro slot member
    have bound := (holds.taken slot (mem_others.mp member).1).2
    change slot.key ≠ newInt64Key s.lastKey
    omega
  · exact fun slot member => taken_slotsAfter holds member
  · exact table_slotsAfter holds
  · exact holds.keyed.addQuote m.cp_valid m.bid _
  · intro cp valid bid
    by_cases here : cp = m.cp ∧ bid = m.bid
    · obtain ⟨rfl, rfl⟩ := here
      exact quotes_here holds
    · change (((s.orderBook.addQuote m.cp m.bid _).quotes cp bid).map quoteLevel).Perm _
      rw [OrderBook.quotes_addQuote CurrencyPair.valid_apart holds.keyed m.cp_valid valid,
        if_neg here, slotsAfter_isOn consistent here]
      exact holds.quotes cp valid bid

end Holds

end SpotGridBot.Feed
