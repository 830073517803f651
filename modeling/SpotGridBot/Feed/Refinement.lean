import SpotGridBot.Feed.LiveLevels

namespace SpotGridBot.Feed
open Utils Book Runs

section Refinement
variable {reg : Registry} {s : ConnectionBaseMD} {levels : PriceLevels} {slots : List (Slot reg)}
  {sent : LevelMessage reg → Prop}

def Coherent (sent : LevelMessage reg → Prop) : Prop :=
  ∀ m m', sent m → sent m' → m.cp = m'.cp → m.bid = m'.bid →
    (m.level.price = m'.level.price ↔ m.price = m'.price)

structure Lists (levels : PriceLevels) (slots : List (Slot reg)) : Prop where
  listed : ∀ slot ∈ slots,
    levels slot.message.cp slot.message.bid slot.message.price = some slot.message.size
  live : ∀ cp bid price size, levels cp bid price = some size → ∃ slot ∈ slots,
    slot.message.cp = cp ∧ slot.message.bid = bid ∧ slot.message.price = price

def Refines (sent : LevelMessage reg → Prop) (s : ConnectionBaseMD) (levels : PriceLevels) : Prop :=
  ∃ slots : List (Slot reg), Holds s slots ∧ Lists levels slots ∧ ∀ slot ∈ slots, sent slot.message

theorem id_eq_iff (consistent : reg.Consistent) (coherent : Coherent sent) {m m' : LevelMessage reg}
    (sentM : sent m) (sentM' : sent m') :
    m.id = m'.id ↔ m.cp = m'.cp ∧ m.bid = m'.bid ∧ m.price = m'.price := by
  constructor
  · intro same
    obtain ⟨cps, bids, texts⟩ := LevelMessage.id_injective consistent same
    exact ⟨cps, bids, (coherent m m' sentM sentM' cps bids).mp texts⟩
  · rintro ⟨cps, bids, prices⟩
    have texts := (coherent m m' sentM sentM' cps bids).mpr prices
    unfold LevelMessage.id LevelMessage.type
    rw [cps, bids, texts]

theorem lists_level (consistent : reg.Consistent) (coherent : Coherent sent) (m : LevelMessage reg)
    (sentM : sent m) (sentAll : ∀ slot ∈ slots, sent slot.message) (lists : Lists levels slots)
    (key : ℤ) : Lists (levels.set m) (slotsAfter slots m key) := by
  constructor
  · intro slot member
    rcases mem_slotsAfter member with ⟨rfl, kept⟩ | ⟨old, other⟩
    · simp [PriceLevels.set, kept]
    · have apart : ¬ (m.cp = slot.message.cp ∧ m.bid = slot.message.bid ∧
          m.price = slot.message.price) := fun same =>
        other ((id_eq_iff consistent coherent sentM (sentAll slot old)).mpr same).symm
      exact (if_neg apart).trans (lists.listed slot old)
  · intro cp bid price size found
    unfold PriceLevels.set at found
    by_cases here : m.cp = cp ∧ m.bid = bid ∧ m.price = price
    · rw [if_pos here] at found
      split at found
      next gone => contradiction
      next kept =>
        rw [slotsAfter, if_neg kept]
        exact ⟨_, List.mem_cons_self, here⟩
    · rw [if_neg here] at found
      obtain ⟨slot, member, cps, bids, prices⟩ := lists.live cp bid price size found
      have other : slot.id ≠ m.id := by
        intro same
        obtain ⟨cps', bids', prices'⟩ :=
          (id_eq_iff consistent coherent (sentAll slot member) sentM).mp same
        exact here ⟨cps'.symm.trans cps, bids'.symm.trans bids, prices'.symm.trans prices⟩
      exact ⟨slot, mem_slotsAfter_of_mem member other key, cps, bids, prices⟩

theorem refines_receive (consistent : reg.Consistent) (coherent : Coherent sent) (e : FeedEvent reg)
    (sentE : ∀ m, e = .level m → sent m) (refines : Refines sent s levels) :
    Refines sent (s.receive e) (levels.receive e) := by
  obtain ⟨slots, holds, lists, sentAll⟩ := refines
  cases e with
  | newKey => exact ⟨slots, holds_newKey holds, lists, sentAll⟩
  | level m =>
      have sentM := sentE m rfl
      have listed := lists_level consistent coherent m sentM sentAll lists (newInt64Key s.lastKey)
      refine ⟨slotsAfter slots m (newInt64Key s.lastKey), ?_, listed, ?_⟩
      · rw [receive_level]
        split
        next nothing =>
          rw [slotsAfter, if_pos nothing.1, others_eq_self holds nothing.2]
          exact holds_newKey holds
        next => exact holds_edited consistent holds
      · intro slot member
        rcases mem_slotsAfter member with ⟨rfl, -⟩ | ⟨old, -⟩
        · exact sentM
        · exact sentAll slot old

theorem refines_run (consistent : reg.Consistent) (coherent : Coherent sent)
    (events : List (FeedEvent reg)) (sentAll : ∀ m, .level m ∈ events → sent m)
    (refines : Refines sent s levels) :
    Refines sent (run ConnectionBaseMD.receive s events)
      (run PriceLevels.receive levels events) := by
  induction events generalizing s levels with
  | nil => exact refines
  | cons e events ih =>
      apply ih fun m member => sentAll m (List.mem_cons_of_mem _ member)
      apply refines_receive consistent coherent e _ refines
      rintro m rfl
      exact sentAll m List.mem_cons_self

theorem refines_empty : Refines sent {} fun _ _ _ => none := by
  refine ⟨[], ⟨le_rfl, List.nodup_nil, List.nodup_nil, ?_, ?_, ⟨?_, List.Pairwise.nil⟩, ?_⟩,
    ⟨?_, ?_⟩, ?_⟩
  · intro slot member
    contradiction
  · intro id info
    simp
  · intro entry member
    contradiction
  · intro cp valid bid
    exact List.Perm.nil
  · intro slot member
    contradiction
  · intro cp bid price size found
    contradiction
  · intro slot member
    contradiction

def Shows (reg : Registry) (cp : CurrencyPair) (level : ℚ → Option ℚ) (vec : QuoteVec) : Prop :=
  ∃ prices : List ℚ, prices.Nodup ∧ (∀ price, price ∈ prices ↔ (level price).isSome = true) ∧
    (vec.map fun quote => (quote.price, quote.volume)).Perm
      (prices.map fun price =>
        (reg.scaledPrice cp price, reg.scaledQty cp ((level price).getD 0)))

structure SameKeys (s : ConnectionBaseMD) : Prop where
  shown : ∀ entry ∈ s.orderBook.quoteVectorMap,
    entry.1.Valid ∧ s.orderBook.find entry.1 = some entry.2
  quoted : ∀ id info, s.activeQuoteTable id = some info → info.cp.Valid ∧
    ∃ quote ∈ s.orderBook.quotes info.cp info.entryType.Bid, quote.key = info.key
  active : ∀ cp, cp.Valid → ∀ bid, ∀ quote ∈ s.orderBook.quotes cp bid, ∃ id info,
    s.activeQuoteTable id = some info ∧ info.cp = cp ∧ info.entryType.Bid = bid ∧
      info.key = quote.key
  oneEntry : ∀ id id' info info', s.activeQuoteTable id = some info →
    s.activeQuoteTable id' = some info' → info.key = info'.key → id = id'
  oneQuote : ∀ cp, cp.Valid → ∀ bid, ((s.orderBook.quotes cp bid).map Quote.key).Nodup

theorem shows_of_refines (consistent : reg.Consistent) (coherent : Coherent sent)
    (fits : ∀ m, sent m → m.level.Fits reg m.cp) (refines : Refines sent s levels)
    {cp : CurrencyPair} (valid : cp.Valid) (bid : Bool) :
    Shows reg cp (levels cp bid) (s.orderBook.quotes cp bid) := by
  obtain ⟨slots, holds, lists, sentAll⟩ := refines
  have own : ∀ slot ∈ slots.filter (Slot.isOn cp bid),
      slot ∈ slots ∧ slot.message.cp = cp ∧ slot.message.bid = bid := by
    intro slot member
    obtain ⟨member, on⟩ := List.mem_filter.mp member
    simp only [Slot.isOn, Bool.and_eq_true, beq_iff_eq] at on
    exact ⟨member, on⟩
  refine ⟨(slots.filter (Slot.isOn cp bid)).map fun slot => slot.message.price, ?_, ?_, ?_⟩
  · apply List.Nodup.map_on _ ((List.Nodup.of_map Slot.id holds.ids).filter _)
    intro slot member slot' member' prices
    obtain ⟨member, cps, bids⟩ := own slot member
    obtain ⟨member', cps', bids'⟩ := own slot' member'
    apply List.inj_on_of_nodup_map holds.ids member member'
    exact (id_eq_iff consistent coherent (sentAll slot member) (sentAll slot' member')).mpr
      ⟨cps.trans cps'.symm, bids.trans bids'.symm, prices⟩
  · intro price
    rw [List.mem_map, Option.isSome_iff_exists]
    constructor
    · rintro ⟨slot, member, rfl⟩
      obtain ⟨stored, rfl, rfl⟩ := own slot member
      exact ⟨_, lists.listed slot stored⟩
    · rintro ⟨size, found⟩
      obtain ⟨slot, member, cps, bids, prices⟩ := lists.live cp bid price size found
      exact ⟨slot, List.mem_filter.mpr ⟨member, by simp [Slot.isOn, cps, bids]⟩, prices⟩
  · have levels_eq : ((slots.filter (Slot.isOn cp bid)).map fun slot => slot.message.price).map
        (fun price => (reg.scaledPrice cp price, reg.scaledQty cp ((levels cp bid price).getD 0))) =
          ((slots.filter (Slot.isOn cp bid)).map Slot.level).map Prod.snd := by
      rw [List.map_map, List.map_map]
      apply List.map_congr_left
      intro slot member
      obtain ⟨stored, rfl, rfl⟩ := own slot member
      have fit := fits slot.message (sentAll slot stored)
      have cpips : reg.dblToCpip64 slot.message.cp slot.message.price =
          reg.scaledPrice slot.message.cp slot.message.price := if_pos fit.cpips
      have qty : reg.doubleToQty64 slot.message.cp slot.message.size =
          reg.scaledQty slot.message.cp slot.message.size := if_pos fit.qty
      simp [lists.listed slot stored, Slot.level, cpips, qty]
    have quotes_eq : ((s.orderBook.quotes cp bid).map fun quote => (quote.price, quote.volume)) =
        ((s.orderBook.quotes cp bid).map quoteLevel).map Prod.snd := by
      rw [List.map_map]
      rfl
    rw [levels_eq, quotes_eq]
    exact (holds.quotes cp valid bid).map Prod.snd

theorem sameKeys_of_refines (refines : Refines sent s levels) : SameKeys s := by
  obtain ⟨slots, holds, -, -⟩ := refines
  have quoteKeys : ∀ cp, cp.Valid → ∀ bid, ((s.orderBook.quotes cp bid).map Quote.key).Perm
      ((slots.filter (Slot.isOn cp bid)).map Slot.key) := by
    intro cp valid bid
    have keys := (holds.quotes cp valid bid).map Prod.fst
    rw [List.map_map, List.map_map] at keys
    exact keys
  have side : ∀ slot : Slot reg, slot.info.entryType.Bid = slot.message.bid := by
    intro slot
    change slot.message.type.Bid = slot.message.bid
    unfold LevelMessage.type
    cases slot.message.bid <;> rfl
  constructor
  · intro entry member
    exact ⟨holds.keyed.inside entry member, holds.keyed.find_of_mem member⟩
  · intro id info found
    obtain ⟨slot, member, rfl, rfl⟩ := (holds.table id info).mp found
    have listed : slot.key ∈ (slots.filter (Slot.isOn slot.message.cp slot.message.bid)).map
        Slot.key := List.mem_map_of_mem (List.mem_filter.mpr ⟨member, by simp [Slot.isOn]⟩)
    have same := quoteKeys slot.message.cp slot.message.cp_valid slot.message.bid
    have quoted := same.mem_iff.mpr listed
    rw [side]
    exact ⟨slot.message.cp_valid, List.mem_map.mp quoted⟩
  · intro cp valid bid quote member
    have listed := (quoteKeys cp valid bid).mem_iff.mp (List.mem_map_of_mem member)
    obtain ⟨slot, member, key⟩ := List.mem_map.mp listed
    obtain ⟨member, on⟩ := List.mem_filter.mp member
    simp only [Slot.isOn, Bool.and_eq_true, beq_iff_eq] at on
    exact ⟨slot.id, slot.info, (holds.table _ _).mpr ⟨slot, member, rfl, rfl⟩, on.1,
      (side slot).trans on.2, key⟩
  · intro id id' info info' found found' keys
    obtain ⟨slot, member, rfl, rfl⟩ := (holds.table id info).mp found
    obtain ⟨slot', member', rfl, rfl⟩ := (holds.table id' info').mp found'
    rw [List.inj_on_of_nodup_map holds.keys member member' keys]
  · intro cp valid bid
    rw [(quoteKeys cp valid bid).nodup_iff]
    exact holds.keys.sublist (List.filter_sublist.map Slot.key)

end Refinement

/-- Where the price texts are coherent and no scaled number is too large, the book shows the price
levels of the feed, and the active quotes are its quotes. -/
theorem book_refines_priceLevels (reg : Registry) (consistent : reg.Consistent)
    (events : List (FeedEvent reg)) (coherent : Coherent fun m => FeedEvent.level m ∈ events)
    (fits : ∀ m, FeedEvent.level m ∈ events → m.level.Fits reg m.cp) :
    (∀ cp, cp.Valid → ∀ bid,
      Shows reg cp (run PriceLevels.receive (fun _ _ _ => none) events cp bid)
        ((run ConnectionBaseMD.receive {} events).orderBook.quotes cp bid)) ∧
    SameKeys (run ConnectionBaseMD.receive {} events) := by
  have refines := refines_run consistent coherent events (fun _ member => member) refines_empty
  exact ⟨fun cp valid bid => shows_of_refines consistent coherent fits refines valid bid,
    sameKeys_of_refines refines⟩

theorem coins_consistent : coins.Consistent where
  mirrored := coins.mirrored_of_mem (by decide)
  checked := by decide +kernel

def btcBid (size : String) (numeric : (Level.mk "100.0" size).Numeric) : LevelMessage coins :=
  ⟨"BTC-USD", true, ⟨"100.0", size⟩, by decide +kernel, numeric,
    (by decide : '_' ∉ "100.0".toList)⟩

def ethAsk : LevelMessage coins :=
  ⟨"ETH-USD", false, ⟨"101.5", "2"⟩, by decide +kernel, by decide +kernel, by decide⟩

def twoCoins : List (FeedEvent coins) :=
  [.level (btcBid "5" (by decide +kernel)), .level ethAsk, .newKey,
    .level (btcBid "7.5" (by decide +kernel)), .level (btcBid "0.0" (by decide +kernel)),
    .level (btcBid "0" (by decide +kernel))]

theorem book_refines_priceLevels_twoCoins :
    (Coherent fun m => FeedEvent.level m ∈ twoCoins) ∧
    Shows coins ethAsk.cp
      (run PriceLevels.receive (fun _ _ _ => none) twoCoins ethAsk.cp false)
      ((run ConnectionBaseMD.receive {} twoCoins).orderBook.quotes ethAsk.cp false) := by
  have coherent : Coherent fun m => FeedEvent.level m ∈ twoCoins := by
    intro m m' sent sent' _ bids
    simp only [twoCoins, List.mem_cons, FeedEvent.level.injEq, reduceCtorEq, List.not_mem_nil,
      or_false, false_or] at sent sent'
    have known : ∀ m : LevelMessage coins, (∃ size numeric, m = btcBid size numeric) ∨ m = ethAsk →
        m.level.price = if m.bid then "100.0" else "101.5" := by
      rintro m (⟨size, numeric, rfl⟩ | rfl) <;> rfl
    have texts : m.level.price = m'.level.price := by
      rw [known m (by grind), known m' (by grind), bids]
    exact ⟨fun _ => congrArg (fun text => (stod text).getD 0) texts, fun _ => texts⟩
  have fits : ∀ m, FeedEvent.level m ∈ twoCoins → m.level.Fits coins m.cp := by
    intro m sent
    simp only [twoCoins, List.mem_cons, FeedEvent.level.injEq, reduceCtorEq, List.not_mem_nil,
      or_false, false_or] at sent
    rcases sent with rfl | rfl | rfl | rfl | rfl <;> decide +kernel
  exact ⟨coherent, (book_refines_priceLevels coins coins_consistent twoCoins coherent fits).1 _
    ethAsk.cp_valid false⟩

def largeBid : LevelMessage coins :=
  ⟨"BTC-USD", true, ⟨"100000000000000000000", "1"⟩, by decide +kernel, by decide +kernel,
    by decide⟩

theorem largePrice_notShown :
    ¬ ∀ reg : Registry, reg.Consistent → ∀ events : List (FeedEvent reg),
      (Coherent fun m => FeedEvent.level m ∈ events) → ∀ cp : CurrencyPair, cp.Valid → ∀ bid,
        Shows reg cp (run PriceLevels.receive (fun _ _ _ => none) events cp bid)
          ((run ConnectionBaseMD.receive {} events).orderBook.quotes cp bid) := by
  intro always
  have coherent : Coherent fun m => FeedEvent.level m ∈ [FeedEvent.level largeBid] := by
    intro m m' sent sent' _ _
    simp only [List.mem_singleton, FeedEvent.level.injEq] at sent sent'
    simp [sent, sent']
  obtain ⟨prices, -, present, shown⟩ := always coins coins_consistent [.level largeBid] coherent
    largeBid.cp largeBid.cp_valid true
  have stored : (((run ConnectionBaseMD.receive {} [.level largeBid]).orderBook.quotes largeBid.cp
      true).map fun quote => (quote.price, quote.volume)) = [(-2 ^ 63, 10 ^ 8)] := by decide +kernel
  rw [stored] at shown
  obtain ⟨price, listed, same⟩ := List.mem_map.mp (shown.mem_iff.mp List.mem_cons_self)
  have there := (present price).mp listed
  have own : price = largeBid.price := by
    by_contra other
    have absent : run PriceLevels.receive (fun _ _ _ => none) [.level largeBid] largeBid.cp true
        price = none := if_neg fun all => other all.2.2.symm
    rw [absent] at there
    cases there
  have scaled : coins.scaledPrice largeBid.cp largeBid.price = 10 ^ 26 := by decide +kernel
  rw [own, scaled] at same
  simp at same

end SpotGridBot.Feed
