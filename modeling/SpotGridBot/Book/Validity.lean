import SpotGridBot.Book.HeldBook
import SpotGridBot.Lib.Runs

namespace SpotGridBot.Book
open Utils OrderBook Runs

namespace HeldBook
variable {book : HeldBook} {cp : CurrencyPair} {bid : Bool}

def idsOf (map : List (CurrencyPair × BidAskPair HeldVec)) : List ℕ :=
  map.flatMap fun entry => HeldVec.ids entry.2.bid ++ HeldVec.ids entry.2.ask

def ids (book : HeldBook) : List ℕ := idsOf book.vectors

def Marked (book : HeldBook) : Prop :=
  ∀ id ∈ book.entered, book.valid id = true ↔ id ∈ book.ids

theorem ids_pair (vectors : BidAskPair HeldVec) (bid : Bool) :
    (HeldVec.ids vectors.bid ++ HeldVec.ids vectors.ask).Perm
      (HeldVec.ids (vectors.get bid) ++ HeldVec.ids (vectors.get !bid)) := by
  cases bid with
  | true => exact List.Perm.refl _
  | false => exact List.perm_append_comm

theorem idsOf_modify {map : VectorMap Held} {entry : CurrencyPair × BidAskPair HeldVec}
    (found : OrderedMap.find CurrencyPair.lt cp map = some entry) (bid : Bool)
    (g : HeldVec → HeldVec) :
    ∃ rest, (idsOf map).Perm (HeldVec.ids (entry.2.get bid) ++ rest) ∧
      (idsOf (OrderedMap.modify CurrencyPair.lt cp
        (fun vectors => vectors.set bid (g (vectors.get bid))) map)).Perm
          (HeldVec.ids (g (entry.2.get bid)) ++ rest) := by
  induction map with
  | nil => cases found
  | cons here map ih =>
      rw [OrderedMap.find_cons] at found
      unfold OrderedMap.modify
      split_ifs at found ⊢ with below above
      · obtain ⟨rest, before, after⟩ := ih found
        refine ⟨HeldVec.ids here.2.bid ++ HeldVec.ids here.2.ask ++ rest, ?_, ?_⟩
        · refine (before.append_left _).trans ?_
          rw [← List.append_assoc, ← List.append_assoc]
          exact List.perm_append_comm.append_right _
        · refine (after.append_left _).trans ?_
          rw [← List.append_assoc, ← List.append_assoc]
          exact List.perm_append_comm.append_right _
      · obtain rfl := Option.some.inj found
        refine ⟨HeldVec.ids (here.2.get !bid) ++ idsOf map, ?_, ?_⟩
        · rw [← List.append_assoc]
          exact (ids_pair here.2 bid).append_right _
        · rw [← List.append_assoc]
          have pair := ids_pair (here.2.set bid (g (here.2.get bid))) bid
          rw [BidAskPair.get_set_same, BidAskPair.get_set_other _ _ (by simp)] at pair
          exact pair.append_right _

theorem idsOf_withVectors (map : VectorMap Held) (cp : CurrencyPair) :
    (idsOf (VectorMap.withVectors map cp)).Perm (idsOf map) := by
  unfold VectorMap.withVectors OrderedMap.emplace
  split
  next => exact List.Perm.refl _
  next => exact (Ordered.insertBefore_perm _ _ map).flatMap_right _

theorem erased_perm (quote : Quote) (vec : HeldVec) :
    vec.Perm ((referred quote vec).toList ++ eraseReferred Held.quote quote vec) := by
  unfold referred eraseReferred
  split_ifs with replaces looks
  · exact Ordered.find?_append_eraseP_perm _ vec
  · exact List.Perm.refl _
  · exact List.Perm.refl _

theorem updateVec_perm (bid : Bool) (quote : Held) (vec : HeldVec) :
    (updateVec Held.quote bid quote vec).Perm
      ((if quote.quote.quoteType ≠ qtDelete then [quote] else []) ++
        eraseReferred Held.quote quote.quote vec) := by
  unfold updateVec
  simp only
  split_ifs with stays empty
  · have none : eraseReferred Held.quote quote.quote vec = [] := List.isEmpty_iff.mp empty
    rw [none, List.append_nil]
  · exact List.perm_insertIdx _ _ List.findIdx_le_length
  · exact List.Perm.refl _

theorem ids_addQuote (book : HeldBook) (cp : CurrencyPair) (bid : Bool) (quote : Held) :
    ∃ rest,
      book.ids.Perm (((referred quote.quote (book.vector cp bid)).map Held.id).toList ++ rest) ∧
      (book.addQuote cp bid quote).ids.Perm
        ((if quote.quote.quoteType ≠ qtDelete then [quote.id] else []) ++ rest) := by
  obtain ⟨entry, found, here⟩ := VectorMap.find_withVectors book.vectors cp
  obtain ⟨rest, before, after⟩ := idsOf_modify found bid (updateVec Held.quote bid quote)
  have own : entry.2.get bid = book.vector cp bid := here bid
  rw [own] at before after
  have same : (book.addQuote cp bid quote).ids = idsOf (VectorMap.update Held.quote
      (VectorMap.withVectors book.vectors cp) cp bid quote) := by
    rw [addQuote_eq, ids, ← vectors_place]
    split_ifs with moved
    · rfl
    · rfl
  refine ⟨HeldVec.ids (eraseReferred Held.quote quote.quote (book.vector cp bid)) ++ rest, ?_, ?_⟩
  · refine (idsOf_withVectors book.vectors cp).symm.trans ?_
    rw [← List.append_assoc]
    refine before.trans (List.Perm.append_right rest ?_)
    have erased := (erased_perm quote.quote (book.vector cp bid)).map Held.id
    rwa [List.map_append, ← Option.toList_map] at erased
  · rw [same, ← List.append_assoc]
    refine after.trans (List.Perm.append_right rest ?_)
    have updated := (updateVec_perm bid quote (book.vector cp bid)).map Held.id
    rw [List.map_append] at updated
    refine updated.trans ?_
    split_ifs with stays
    · exact List.Perm.refl _
    · exact List.Perm.refl _

theorem valid_setInvalid (book : HeldBook) (id i : ℕ) (quote : Held) :
    (book.setInvalid id (some quote)).valid i =
      if i = id ∧ quote.id ≠ id ∧ quote.quote.sendingTime ≠ 0 ∧ quote.quote.receiptTime ≠ 0 then
        false
      else book.valid i := by
  unfold setInvalid
  by_cases here : i = id
  · subst here
    cases valid : book.valid i with
    | false => simp [valid]
    | true =>
        by_cases other : quote.id = i
        · simp [valid, other]
        · by_cases times : quote.quote.sendingTime ≠ 0 ∧ quote.quote.receiptTime ≠ 0
          · simp [other, times, HeldBook.valid]
          · simp [valid, other, times]
  · simp only [here, false_and, if_false]
    split_ifs with valid times
    · simp [HeldBook.valid, here]
    · rfl
    · rfl

theorem setInvalid_none (book : HeldBook) (id : ℕ) : book.setInvalid id none = book := by
  simp [setInvalid, currentTimestamp]

theorem clear_eq (book : HeldBook) :
    book.clear = { book with vectors := [], lastQuote := none } := by
  have unmarked : ∀ quotes : HeldVec,
      quotes.foldl (fun book q => book.setInvalid q.id none) book = book := by
    intro quotes
    induction quotes with
    | nil => rfl
    | cons q quotes ih => rw [List.foldl_cons, setInvalid_none, ih]
  rw [clear, unmarked]

section AddQuote
variable (book : HeldBook) (cp : CurrencyPair) (bid : Bool) (quote : Held)

theorem addQuote_fields :
    (book.addQuote cp bid quote).successor =
      (book.markReferred quote (book.vector cp bid)).successor ∧
    (book.addQuote cp bid quote).made = book.made ∧
    (book.addQuote cp bid quote).entered =
      book.entered ++ if quote.quote.quoteType ≠ qtDelete then [quote.id] else [] := by
  have placed : (book.place cp bid quote).successor =
        (book.markReferred quote (book.vector cp bid)).successor ∧
      (book.place cp bid quote).made = book.made ∧
      (book.place cp bid quote).entered =
        book.entered ++ if quote.quote.quoteType ≠ qtDelete then [quote.id] else [] := by
    unfold place
    rw [markReferred_eq]
    exact ⟨rfl, rfl, rfl⟩
  rw [addQuote_eq]
  split
  next => exact placed
  next => exact placed

theorem valid_addQuote (i : ℕ) :
    (book.addQuote cp bid quote).valid i =
      if (referred quote.quote (book.vector cp bid)).map Held.id = some i ∧ quote.id ≠ i ∧
        quote.quote.sendingTime ≠ 0 ∧ quote.quote.receiptTime ≠ 0 then false
      else book.valid i := by
  have same : (book.addQuote cp bid quote).valid i =
      (book.markReferred quote (book.vector cp bid)).valid i := by
    unfold HeldBook.valid
    rw [(addQuote_fields book cp bid quote).1]
  rw [same]
  unfold markReferred
  cases referred quote.quote (book.vector cp bid) with
  | none => simp
  | some q =>
      simp only [valid_setInvalid, Option.map_some, Option.some.injEq]
      by_cases here : i = q.id
      · simp [here]
      · simp [here, Ne.symm here]

end AddQuote

structure Accurate (book : HeldBook) : Prop where
  nodup : book.ids.Nodup
  entered : ∀ id ∈ book.ids, id ∈ book.entered
  old : ∀ id ∈ book.entered, id < book.made
  unmarked : ∀ id, book.made ≤ id → book.valid id = true
  marked : book.Marked

def add (book : HeldBook) (cp : CurrencyPair) (bid : Bool) (quote : Quote) : HeldBook :=
  let (held, book) := book.getQuote quote
  book.addQuote cp bid held

def MarksReplaced (book : HeldBook) (cp : CurrencyPair) (bid : Bool) (quote : Quote) : Prop :=
  referred quote (book.vector cp bid) = none ∨ quote.sendingTime ≠ 0 ∧ quote.receiptTime ≠ 0

instance (book : HeldBook) (cp : CurrencyPair) (bid : Bool) (quote : Quote) :
    Decidable (book.MarksReplaced cp bid quote) :=
  inferInstanceAs (Decidable (_ ∨ _ ∧ _))

section Add
variable (accurate : book.Accurate) (cp : CurrencyPair) (bid : Bool) (quote : Quote)
include accurate

theorem Accurate.lt {id : ℕ} (held : id ∈ book.ids) : id < book.made :=
  accurate.old id (accurate.entered id held)

theorem Accurate.add_spec :
    ∃ rest,
      book.ids.Perm (((referred quote (book.vector cp bid)).map Held.id).toList ++ rest) ∧
      (book.add cp bid quote).ids.Perm
        ((if quote.quoteType ≠ qtDelete then [book.made] else []) ++ rest) ∧
      (book.add cp bid quote).entered =
        (book.entered ++ if quote.quoteType ≠ qtDelete then [book.made] else []) ∧
      (book.add cp bid quote).made = book.made + 1 ∧
      ∀ id, (book.add cp bid quote).valid id =
        if (referred quote (book.vector cp bid)).map Held.id = some id ∧
          quote.sendingTime ≠ 0 ∧ quote.receiptTime ≠ 0 then false else book.valid id := by
  obtain ⟨rest, before, after⟩ := ids_addQuote (book.getQuote quote).2 cp bid ⟨book.made, quote⟩
  obtain ⟨-, made, entered⟩ := addQuote_fields (book.getQuote quote).2 cp bid ⟨book.made, quote⟩
  refine ⟨rest, before, after, entered, made, fun id => ?_⟩
  refine (valid_addQuote (book.getQuote quote).2 cp bid ⟨book.made, quote⟩ id).trans ?_
  have replacedOther : (referred quote (book.vector cp bid)).map Held.id = some id →
      book.made ≠ id := by
    intro replaced
    have held : id ∈ book.ids := before.mem_iff.mpr (by
      change id ∈ ((referred quote (book.vector cp bid)).map Held.id).toList ++ rest
      simp [replaced])
    exact (accurate.lt held).ne'
  change (if (referred quote (book.vector cp bid)).map Held.id = some id ∧ book.made ≠ id ∧
    quote.sendingTime ≠ 0 ∧ quote.receiptTime ≠ 0 then false else book.valid id) = _
  by_cases replaced : (referred quote (book.vector cp bid)).map Held.id = some id
  · simp [replaced, replacedOther replaced]
  · simp [replaced]

theorem Accurate.add (marks : book.MarksReplaced cp bid quote) :
    (book.add cp bid quote).Accurate := by
  obtain ⟨rest, before, after, entered, made, valid⟩ := accurate.add_spec cp bid quote
  have nodup := before.nodup_iff.mp accurate.nodup
  have restHeld : ∀ id ∈ rest, id ∈ book.ids := fun id member =>
    before.mem_iff.mpr (List.mem_append_right _ member)
  have new : book.made ∉ rest := fun member =>
    absurd (accurate.lt (restHeld _ member)) (lt_irrefl _)
  have replacedHeld : ∀ id, (referred quote (book.vector cp bid)).map Held.id = some id →
      id ∈ book.ids ∧ id ∉ rest := by
    intro id same
    rw [same] at before nodup
    exact ⟨before.mem_iff.mpr List.mem_cons_self, (List.nodup_cons.mp nodup).1⟩
  have newest : ∀ id, book.made ≤ id → (book.add cp bid quote).valid id = true := by
    intro id new
    rw [valid, if_neg, accurate.unmarked id new]
    intro replaced
    exact absurd (accurate.lt (replacedHeld id replaced.1).1) (not_lt.mpr new)
  have isNew : ∀ id, id ∈ (if quote.quoteType ≠ qtDelete then [book.made] else []) →
      id = book.made := by
    intro id member
    split_ifs at member with stays
    · exact List.mem_singleton.mp member
    · contradiction
  exact
    { nodup := by
        rw [after.nodup_iff]
        split_ifs with stays
        · exact List.nodup_cons.mpr ⟨new, (List.nodup_append.mp nodup).2.1⟩
        · exact (List.nodup_append.mp nodup).2.1
      entered := by
        intro id held
        rw [entered, List.mem_append]
        cases List.mem_append.mp (after.mem_iff.mp held) with
        | inl here => exact .inr here
        | inr later => exact .inl (accurate.entered id (restHeld id later))
      old := by
        intro id member
        rw [entered, List.mem_append] at member
        rw [made]
        cases member with
        | inl old => exact Nat.lt_succ_of_lt (accurate.old id old)
        | inr new => exact isNew id new ▸ Nat.lt_succ_self _
      unmarked := fun id later => newest id (by omega)
      marked := by
        intro id member
        rw [entered, List.mem_append] at member
        rw [after.mem_iff, List.mem_append]
        cases member with
        | inl old =>
            have notNew : id ∉ if quote.quoteType ≠ qtDelete then [book.made] else [] :=
              fun new => (accurate.old id old).ne (isNew id new)
            rw [valid]
            by_cases replaced : (referred quote (book.vector cp bid)).map Held.id = some id
            · have times : quote.sendingTime ≠ 0 ∧ quote.receiptTime ≠ 0 :=
                marks.resolve_left fun none => by simp [none] at replaced
              rw [if_pos ⟨replaced, times⟩, or_iff_right notNew]
              exact iff_of_false Bool.false_ne_true (replacedHeld id replaced).2
            · rw [if_neg fun both => replaced both.1, accurate.marked id old, before.mem_iff]
              rw [List.mem_append, Option.mem_toList, or_iff_right replaced, or_iff_right notNew]
        | inr new => exact ⟨fun _ => .inl new, fun _ => newest id (isNew id new).ge⟩ }

theorem Accurate.add_breaks (unmarked : ¬ book.MarksReplaced cp bid quote) :
    ¬ (book.add cp bid quote).Marked := by
  obtain ⟨rest, before, after, entered, made, valid⟩ := accurate.add_spec cp bid quote
  obtain ⟨replaces, noTimes⟩ := not_or.mp unmarked
  obtain ⟨q, replaced⟩ := Option.ne_none_iff_exists'.mp replaces
  have nodup := before.nodup_iff.mp accurate.nodup
  rw [replaced] at before nodup
  have held : q.id ∈ book.ids := before.mem_iff.mpr List.mem_cons_self
  have left : q.id ∉ (book.add cp bid quote).ids := by
    rw [after.mem_iff, List.mem_append]
    have below := accurate.lt held
    rintro (new | later)
    · split_ifs at new with stays
      · rw [List.mem_singleton.mp new] at below
        exact lt_irrefl _ below
      · contradiction
    · exact (List.nodup_cons.mp nodup).1 later
  have stillValid : (book.add cp bid quote).valid q.id = true := by
    rw [valid, if_neg fun both => noTimes both.2]
    exact (accurate.marked q.id (accurate.entered q.id held)).mpr held
  intro marked
  apply left
  apply (marked q.id _).mp stillValid
  rw [entered]
  exact List.mem_append_left _ (accurate.entered q.id held)

end Add

end HeldBook

open HeldBook

inductive BookCall where
  -- The overload without a sending time.
  | addEntry (key refKey receiveTime : ℤ) (cp : CurrencyPair) (entry : Entry)
  | addEntryAt (key refKey sendTime receiveTime : ℤ) (cp : CurrencyPair) (entry : Entry)
  | clear

def HeldBook.call (reg : Registry) (book : HeldBook) : BookCall → HeldBook
  | .addEntry key refKey receiveTime cp entry =>
      book.add cp entry.entryType.Bid (entryQuote reg key refKey 0 receiveTime cp entry)
  | .addEntryAt key refKey sendTime receiveTime cp entry =>
      book.add cp entry.entryType.Bid (entryQuote reg key refKey sendTime receiveTime cp entry)
  | .clear => book.clear

def HeldBook.MarksLeavers (reg : Registry) (book : HeldBook) : BookCall → Prop
  | .addEntry key refKey receiveTime cp entry =>
      book.MarksReplaced cp entry.entryType.Bid (entryQuote reg key refKey 0 receiveTime cp entry)
  | .addEntryAt key refKey sendTime receiveTime cp entry =>
      book.MarksReplaced cp entry.entryType.Bid
        (entryQuote reg key refKey sendTime receiveTime cp entry)
  | .clear => book.ids = []

instance (reg : Registry) (book : HeldBook) : (call : BookCall) →
    Decidable (book.MarksLeavers reg call)
  | .addEntry _ _ _ _ _ => inferInstanceAs (Decidable (book.MarksReplaced _ _ _))
  | .addEntryAt _ _ _ _ _ _ => inferInstanceAs (Decidable (book.MarksReplaced _ _ _))
  | .clear => inferInstanceAs (Decidable (_ = _))

theorem HeldBook.Accurate.clear {book : HeldBook} (accurate : book.Accurate)
    (empty : book.ids = []) : book.clear.Accurate := by
  rw [clear_eq]
  exact
    { nodup := List.nodup_nil
      entered := fun id held => absurd held List.not_mem_nil
      old := accurate.old
      unmarked := accurate.unmarked
      marked := fun id member => (accurate.marked id member).trans (by rw [empty]; rfl) }

theorem HeldBook.Accurate.clear_breaks {book : HeldBook} (accurate : book.Accurate)
    (holds : book.ids ≠ []) : ¬ book.clear.Marked := by
  obtain ⟨id, held⟩ := List.exists_mem_of_ne_nil _ holds
  rw [clear_eq]
  intro marked
  have entered := accurate.entered id held
  have valid := (accurate.marked id entered).mpr held
  exact List.not_mem_nil ((marked id entered).mp valid)

def bidLevel (updateType : ℤ) (price volume : ℚ) : Entry where
  id := "B"
  refId := "B"
  updateType := updateType
  entryType := QuoteType.ofChar '0'
  instrument := ⟨⟨71⟩, Currency.usd⟩
  price := price
  volume := volume

def replacedOnce : List BookCall :=
  [.addEntryAt 1 0 currentTimestamp currentTimestamp ⟨⟨71⟩, Currency.usd⟩ (bidLevel qtNew 100 5),
    .addEntryAt 2 1 currentTimestamp currentTimestamp ⟨⟨71⟩, Currency.usd⟩
      (bidLevel qtUpdate 100 7)]

theorem replacedOnce_staysValid :
    ¬ Always (HeldBook.call noCurrencies) Marked {} replacedOnce := by
  intro always
  have last := always.last
  have entered : 0 ∈ (run (HeldBook.call noCurrencies) {} replacedOnce).entered := by decide +kernel
  have valid : (run (HeldBook.call noCurrencies) {} replacedOnce).valid 0 = true := by
    decide +kernel
  have left : 0 ∉ (run (HeldBook.call noCurrencies) {} replacedOnce).ids := by decide +kernel
  exact left ((last 0 entered).mp valid)

/-- The quotes that left are the invalid ones in the runs in which every quote that leaves is
replaced by one with a sending and a receipt time, and in no others. -/
theorem marked_iff_marksLeavers (reg : Registry) (calls : List BookCall) :
    Always (HeldBook.call reg) Marked {} calls ↔
      Along (HeldBook.call reg) (MarksLeavers reg) {} calls := by
  have initial : Accurate {} :=
    ⟨List.nodup_nil, by simp [ids, idsOf], by simp, by simp [HeldBook.valid], by simp [Marked]⟩
  have allowed : Along (HeldBook.call reg) (fun _ _ => True) {} calls :=
    along_of_forall (p := fun _ => True) (fun _ _ => trivial) _
  refine always_iff_along ?_ ?_ ?_ initial allowed
  · intro book call _ (accurate : book.Accurate) marks
    cases call with
    | addEntry key refKey receiveTime cp entry => exact accurate.add cp _ _ marks
    | addEntryAt key refKey sendTime receiveTime cp entry => exact accurate.add cp _ _ marks
    | clear => exact accurate.clear marks
  · exact fun book accurate => accurate.marked
  · intro book call _ accurate unmarked
    cases call with
    | addEntry key refKey receiveTime cp entry => exact accurate.add_breaks cp _ _ unmarked
    | addEntryAt key refKey sendTime receiveTime cp entry =>
        exact accurate.add_breaks cp _ _ unmarked
    | clear => exact accurate.clear_breaks unmarked

end SpotGridBot.Book
