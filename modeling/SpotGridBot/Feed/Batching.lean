import SpotGridBot.Feed.ConnectionBaseMD

namespace SpotGridBot.Book

def Quote.unkeyed (quote : Quote) : Quote := { quote with key := 0, refKey := 0 }

def OrderBook.unkeyed (book : OrderBook) : OrderBook :=
  { book with
    quoteVectorMap := book.quoteVectorMap.map fun entry =>
      (entry.1, ⟨entry.2.bid.map Quote.unkeyed, entry.2.ask.map Quote.unkeyed⟩)
    lastQuote := book.lastQuote.map Quote.unkeyed }

end SpotGridBot.Book

namespace SpotGridBot.Feed
open Utils Book

def QuoteInfo.unkeyed (info : QuoteInfo) : QuoteInfo := { info with key := 0 }

abbrev Known := String → Bool

namespace Known
variable (known : Known) (entry : Entry)

def has (refId : String) : Bool := refId ≠ "" && known refId

def resolves : Bool :=
  entry.entryType.Valid && decide entry.instrument.Valid || known.has entry.refId

def after : Known :=
  if known.resolves entry then
    let kept := if known.has entry.refId then Function.update known entry.refId false else known
    if entry.updateType = qtDelete then kept else Function.update kept entry.id true
  else known

def unmatched : Bool :=
  known.resolves entry && entry.updateType == qtDelete && !known.has entry.refId

def OnlyLastUnmatched (known : Known) : List Entry → Prop
  | [] => True
  | entry :: entries => (entries = [] ∨ known.unmatched entry = false) ∧
      OnlyLastUnmatched (known.after entry) entries

end Known

namespace ConnectionBaseMD
variable (reg : Registry) (s : ConnectionBaseMD) (entry : Entry)

def known : Known := fun id => (s.activeQuoteTable id).isSome

def publishSingly (entries : List Entry) : ConnectionBaseMD :=
  entries.foldl (fun s entry => (s.publishQuotes reg [entry]).1) s

def SameUpToKeys (s s' : ConnectionBaseMD) : Prop :=
  (∀ id, (s.activeQuoteTable id).map QuoteInfo.unkeyed =
    (s'.activeQuoteTable id).map QuoteInfo.unkeyed) ∧
  s.orderBook.unkeyed = s'.orderBook.unkeyed

def Transparent (entries : List Entry) : Prop :=
  (s.publishQuotes reg entries).2 = [] ∧
  SameUpToKeys (s.publishQuotes reg entries).1 (s.publishSingly reg entries)

theorem findQuoteInfo_isSome (refId : String) :
    (s.activeQuoteTable.findQuoteInfo refId).isSome = s.known.has refId := by
  unfold ActiveQuoteTable.findQuoteInfo Known.has known
  by_cases empty : refId = ""
  · simp [empty]
  · simp [empty]

theorem resolve_isSome : (s.resolve entry).isSome = s.known.resolves entry := by
  unfold resolve Known.resolves
  rw [← findQuoteInfo_isSome]
  cases s.activeQuoteTable.findQuoteInfo entry.refId with
  | none => cases entry.entryType.Valid <;> by_cases valid : entry.instrument.Valid <;> simp [valid]
  | some info =>
      cases entry.entryType.Valid <;> by_cases valid : entry.instrument.Valid <;> simp [valid]

theorem publishEntry_cases :
    (s.known.unmatched entry = true ∧ ∃ s', s.publishEntry reg entry = .quit s') ∨
    (s.known.unmatched entry = false ∧ ∃ s', s.publishEntry reg entry = .next s' ∧
      s'.known = s.known.after entry) := by
  have resolves := s.resolve_isSome entry
  have has := s.findQuoteInfo_isSome entry.refId
  unfold publishEntry
  cases resolved : s.resolve entry with
  | none =>
      have skipped : s.known.resolves entry = false := by simpa [resolved] using resolves.symm
      exact .inr ⟨by simp [Known.unmatched, skipped], s, rfl, by simp [Known.after, skipped]⟩
  | some found =>
      obtain ⟨cp, entryType⟩ := found
      have reached : s.known.resolves entry = true := by simpa [resolved] using resolves.symm
      simp only [Known.unmatched, Known.after, reached, if_true, Bool.true_and, ← has]
      by_cases delete : entry.updateType = qtDelete
      · have known := s.activeQuoteTable.isSome_removeQuoteInfo entry.refId
        have removed := s.activeQuoteTable.removeQuoteInfo_removed entry.refId
        simp only [delete, if_true, beq_self_eq_true, Bool.true_and, removed]
        cases found : s.activeQuoteTable.findQuoteInfo entry.refId with
        | none => exact .inl ⟨by simp, _, rfl⟩
        | some replaced =>
            rw [found] at known
            exact .inr ⟨by simp, _, rfl, known⟩
      · have known := s.activeQuoteTable.isSome_replaceQuoteInfo entry.refId entry.id
          ⟨newInt64Key s.lastKey, cp, entryType⟩
        have replaces := s.activeQuoteTable.replaceQuoteInfo_replaced entry.refId entry.id
          ⟨newInt64Key s.lastKey, cp, entryType⟩
        simp only [delete, if_false, beq_eq_false_iff_ne.mpr delete, Bool.false_and, replaces]
        cases found : s.activeQuoteTable.findQuoteInfo entry.refId with
        | none =>
            rw [found] at known
            exact .inr ⟨trivial, _, rfl, known⟩
        | some replaced =>
            rw [found] at known
            exact .inr ⟨trivial, _, rfl, known⟩

theorem publishQuotes_complete_iff (entries : List Entry) :
    (s.publishQuotes reg entries).2 = [] ↔ s.known.OnlyLastUnmatched entries := by
  induction entries generalizing s with
  | nil => simp [publishQuotes, Known.OnlyLastUnmatched]
  | cons entry entries ih =>
      rw [publishQuotes_cons, Known.OnlyLastUnmatched]
      rcases s.publishEntry_cases reg entry with
        ⟨unmatched, s', quits⟩ | ⟨matched, s', continues, known⟩
      · rw [quits, unmatched]
        constructor
        · rintro rfl
          exact ⟨.inl rfl, trivial⟩
        · rintro ⟨last | impossible, -⟩
          · exact last
          · contradiction
      · rw [continues, matched, ← known, ← ih s']
        simp

theorem publishQuotes_eq_publishSingly (entries : List Entry)
    (complete : s.known.OnlyLastUnmatched entries) :
    (s.publishQuotes reg entries).1 = s.publishSingly reg entries := by
  induction entries generalizing s with
  | nil => rfl
  | cons entry entries ih =>
      obtain ⟨last, later⟩ := complete
      rw [publishQuotes_cons, publishSingly, List.foldl_cons, publishQuotes_singleton]
      rcases s.publishEntry_cases reg entry with
        ⟨unmatched, s', quits⟩ | ⟨matched, s', continues, known⟩
      · obtain rfl : entries = [] := last.resolve_right (by simp [unmatched])
        rw [quits]
        rfl
      · rw [continues]
        exact ih s' (known ▸ later)

theorem SameUpToKeys.refl : SameUpToKeys s s := ⟨fun _ => rfl, rfl⟩

/-- A message is transparent exactly when only its last entry deletes a quote that is not active. -/
theorem transparent_iff (entries : List Entry) :
    s.Transparent reg entries ↔ s.known.OnlyLastUnmatched entries := by
  constructor
  · intro transparent
    exact (s.publishQuotes_complete_iff reg entries).mp transparent.1
  · intro complete
    refine ⟨(s.publishQuotes_complete_iff reg entries).mpr complete, ?_⟩
    rw [s.publishQuotes_eq_publishSingly reg entries complete]
    exact SameUpToKeys.refl _

def bidMoves : List Entry :=
  (parseQuote coins [⟨"100", "0"⟩, ⟨"101", "5"⟩] '0' "BTC/USD").getD []

theorem bidMoves_loses : ¬ Transparent coins {} bidMoves ∧
    ¬ SameUpToKeys (publishQuotes coins {} bidMoves).1 (publishSingly coins {} bidMoves) := by
  constructor
  · intro transparent
    have processed := transparent.1
    revert processed
    decide +kernel
  · intro same
    have arrived := same.1 "BTC/USD_B101"
    revert arrived
    decide +kernel

end ConnectionBaseMD

end SpotGridBot.Feed
