import SpotGridBot.Feed.Batching
import SpotGridBot.Feed.Refinement

namespace SpotGridBot.Feed
open Utils Book Runs

namespace PriceLevels

def setLevel (cp : CurrencyPair) (bid : Bool) (levels : PriceLevels) (level : Level) :
    PriceLevels :=
  fun cp' bid' price =>
    if cp = cp' ∧ bid = bid' ∧ level.priced = price then
      if level.sized = 0 then none else some level.sized
    else levels cp' bid' price

def setSide (cp : CurrencyPair) (bid : Bool) (levels : PriceLevels) (side : List Level) :
    PriceLevels :=
  side.foldl (setLevel cp bid) levels

def setSides (cp : CurrencyPair) (levels : PriceLevels) (bids asks : List Level) : PriceLevels :=
  setSide cp false (setSide cp true levels bids) asks

end PriceLevels

structure Texts (reg : Registry) (quoted : CurrencyPair → Bool → Level → Prop) : Prop where
  numeric : ∀ cp bid level, quoted cp bid level → level.Numeric
  plain : ∀ cp bid level, quoted cp bid level → '_' ∉ level.price.toList
  coherent : ∀ cp bid level level', quoted cp bid level → quoted cp bid level' →
    (level.price = level'.price ↔ level.priced = level'.priced)
  fits : ∀ cp bid level, quoted cp bid level → level.Fits reg cp

def sent (reg : Registry) (quoted : CurrencyPair → Bool → Level → Prop) (m : LevelMessage reg) :
    Prop :=
  quoted m.cp m.bid m.level

def sideOf (bid : Bool) : Char := if bid then '0' else '1'

namespace ConnectionBaseMD
variable (reg : Registry) (s : ConnectionBaseMD)

def GoesThrough (side : List Level) (bid : Bool) (instrument : String) : Prop :=
  ∀ entries ∈ parseQuote reg side (sideOf bid) instrument, (s.publishQuotes reg entries).2 = []

def GoesThroughSides (bids asks : List Level) (instrument : String) : Prop :=
  s.GoesThrough reg bids true instrument ∧
  ∀ s' ∈ s.publishLevels reg bids '0' instrument, s'.GoesThrough reg asks false instrument

instance (side : List Level) (bid : Bool) (instrument : String) :
    Decidable (s.GoesThrough reg side bid instrument) :=
  inferInstanceAs (Decidable (∀ entries ∈ parseQuote reg side (sideOf bid) instrument, _))

instance (bids asks : List Level) (instrument : String) :
    Decidable (s.GoesThroughSides reg bids asks instrument) :=
  inferInstanceAs (Decidable (_ ∧ ∀ s' ∈ s.publishLevels reg bids '0' instrument, _))

end ConnectionBaseMD

section Publishing
variable {reg : Registry} {quoted : CurrencyPair → Bool → Level → Prop} {s : ConnectionBaseMD}
  {levels : PriceLevels} {instrument : String} {side : List Level}

theorem sent_coherent (texts : Texts reg quoted) : Coherent (sent reg quoted) := by
  intro m m' sentM sentM' cps bids
  unfold sent at sentM'
  rw [← cps, ← bids] at sentM'
  exact texts.coherent m.cp m.bid m.level m'.level sentM sentM'

theorem sent_fits (texts : Texts reg quoted) (m : LevelMessage reg) (sentM : sent reg quoted m) :
    m.level.Fits reg m.cp :=
  texts.fits m.cp m.bid m.level sentM

theorem exists_messages (texts : Texts reg quoted) (valid : (reg.getCurrencyPair instrument).Valid)
    (bid : Bool) (listed : ∀ level ∈ side, quoted (reg.getCurrencyPair instrument) bid level) :
    ∃ messages : List (LevelMessage reg), messages.map LevelMessage.level = side ∧
      ∀ m ∈ messages, m.instrument = instrument ∧ m.bid = bid := by
  induction side with
  | nil =>
      refine ⟨[], rfl, ?_⟩
      intro m member
      contradiction
  | cons level side ih =>
      obtain ⟨messages, levels, own⟩ := ih fun level member =>
        listed level (List.mem_cons_of_mem _ member)
      have here := listed level List.mem_cons_self
      have numeric := texts.numeric _ _ _ here
      have plain := texts.plain _ _ _ here
      refine ⟨⟨instrument, bid, level, valid, numeric, plain⟩ :: messages, ?_, ?_⟩
      · rw [List.map_cons, levels]
      · intro m member
        rcases List.mem_cons.mp member with rfl | later
        · exact ⟨rfl, rfl⟩
        · exact own m later

theorem parseQuote_messages {bid : Bool} {messages : List (LevelMessage reg)}
    (own : ∀ m ∈ messages, m.instrument = instrument ∧ m.bid = bid) :
    parseQuote reg (messages.map LevelMessage.level) (sideOf bid) instrument =
      some (messages.map LevelMessage.entry) := by
  induction messages with
  | nil => rfl
  | cons m messages ih =>
      obtain ⟨⟨rfl, rfl⟩, later⟩ := List.forall_mem_cons.mp own
      have first : parseLevel reg (sideOf m.bid) m.instrument m.level = some m.entry := by
        have single := parseQuote_level m
        unfold parseQuote at single
        rw [List.mapM_cons, List.mapM_nil] at single
        cases parsed : parseLevel reg m.side m.instrument m.level with
        | none =>
            rw [parsed] at single
            contradiction
        | some entry =>
            rw [parsed] at single
            have same : entry = m.entry := by simpa using single
            exact parsed.trans (congrArg some same)
      have rest := ih later
      unfold parseQuote at rest ⊢
      rw [List.map_cons, List.mapM_cons, first, rest]
      rfl

theorem publishSingly_messages (messages : List (LevelMessage reg)) :
    s.publishSingly reg (messages.map LevelMessage.entry) =
      run ConnectionBaseMD.receive s (messages.map FeedEvent.level) := by
  induction messages generalizing s with
  | nil => rfl
  | cons m messages ih =>
      have parsed : s.publishLevels reg [m.level] m.side m.instrument =
          some (s.publishQuotes reg [m.entry]).1 :=
        congrArg (Option.map fun entries => (s.publishQuotes reg entries).1) (parseQuote_level m)
      have received : s.receive (.level m) = (s.publishQuotes reg [m.entry]).1 :=
        congrArg (fun base => base.getD s) parsed
      rw [List.map_cons, List.map_cons, run_cons, received, ← ih]
      rfl

theorem setSide_messages {bid : Bool} {messages : List (LevelMessage reg)}
    (own : ∀ m ∈ messages, m.instrument = instrument ∧ m.bid = bid) :
    run PriceLevels.receive levels (messages.map FeedEvent.level) =
      levels.setSide (reg.getCurrencyPair instrument) bid
        (messages.map LevelMessage.level) := by
  induction messages generalizing levels with
  | nil => rfl
  | cons m messages ih =>
      obtain ⟨⟨rfl, rfl⟩, later⟩ := List.forall_mem_cons.mp own
      rw [List.map_cons, run_cons, ih later]
      rfl

theorem publishLevels_refines (consistent : reg.Consistent) (texts : Texts reg quoted)
    (valid : (reg.getCurrencyPair instrument).Valid) (bid : Bool)
    (listed : ∀ level ∈ side, quoted (reg.getCurrencyPair instrument) bid level)
    (whole : s.GoesThrough reg side bid instrument) (refines : Refines (sent reg quoted) s levels) :
    ∃ s', s.publishLevels reg side (sideOf bid) instrument = some s' ∧
      Refines (sent reg quoted) s' (levels.setSide (reg.getCurrencyPair instrument) bid side) := by
  obtain ⟨messages, rfl, own⟩ := exists_messages texts valid bid listed
  have parsed := parseQuote_messages own
  have complete := (s.publishQuotes_complete_iff reg _).mp (whole _ parsed)
  have singly := s.publishQuotes_eq_publishSingly reg _ complete
  refine ⟨run ConnectionBaseMD.receive s (messages.map FeedEvent.level), ?_, ?_⟩
  · rw [ConnectionBaseMD.publishLevels, parsed, Option.map_some, singly, publishSingly_messages]
  · rw [← setSide_messages own]
    apply refines_run consistent (sent_coherent texts) _ _ refines
    intro m member
    obtain ⟨m', here, same⟩ := List.mem_map.mp member
    obtain rfl := FeedEvent.level.inj same
    obtain ⟨instruments, bids⟩ := own m' here
    have quotes := listed m'.level (List.mem_map_of_mem here)
    rw [← instruments, ← bids] at quotes
    exact quotes

theorem publishSides_refines (consistent : reg.Consistent) (texts : Texts reg quoted)
    (valid : (reg.getCurrencyPair instrument).Valid) {bids asks : List Level}
    (listedBids : ∀ level ∈ bids, quoted (reg.getCurrencyPair instrument) true level)
    (listedAsks : ∀ level ∈ asks, quoted (reg.getCurrencyPair instrument) false level)
    (whole : s.GoesThroughSides reg bids asks instrument)
    (refines : Refines (sent reg quoted) s levels) :
    ∃ s', s.publishSides reg bids asks instrument = .done s' ∧
      Refines (sent reg quoted) s' (levels.setSides (reg.getCurrencyPair instrument) bids asks) := by
  obtain ⟨s₁, first, refines⟩ :=
    publishLevels_refines consistent texts valid true listedBids whole.1 refines
  obtain ⟨s₂, second, refines⟩ :=
    publishLevels_refines consistent texts valid false listedAsks (whole.2 s₁ first) refines
  refine ⟨s₂, ?_, refines⟩
  have bids : s.publishLevels reg bids '0' instrument = some s₁ := first
  have asks : s₁.publishLevels reg asks '1' instrument = some s₂ := second
  rw [ConnectionBaseMD.publishSides, bids]
  simp only [asks]

theorem parseQuote_cons {type : Char} {level : Level} {entries : List Entry}
    (parsed : parseQuote reg (level :: side) type instrument = some entries) :
    ∃ entry rest, parseLevel reg type instrument level = some entry ∧
      parseQuote reg side type instrument = some rest ∧ entries = entry :: rest := by
  unfold parseQuote at parsed ⊢
  rw [List.mapM_cons] at parsed
  cases first : parseLevel reg type instrument level with
  | none =>
      rw [first] at parsed
      contradiction
  | some entry =>
      cases later : side.mapM (parseLevel reg type instrument) with
      | none =>
          rw [first, later] at parsed
          contradiction
      | some rest =>
          rw [first, later] at parsed
          exact ⟨entry, rest, rfl, rfl, (Option.some.inj parsed).symm⟩

theorem parseLevel_kept {type : Char} {level : Level} {entry : Entry}
    (parsed : parseLevel reg type instrument level = some entry) (kept : level.sized ≠ 0) :
    entry.updateType ≠ qtDelete := by
  unfold parseLevel at parsed
  cases priced : stod level.price with
  | none =>
      rw [priced] at parsed
      contradiction
  | some price =>
      cases sized : stod level.size with
      | none =>
          rw [priced, sized] at parsed
          contradiction
      | some size =>
          have size_ne : size ≠ 0 := by simpa [Level.sized, sized] using kept
          rw [priced, sized] at parsed
          obtain rfl := Option.some.inj parsed
          have new : qtNew ≠ qtDelete := by decide
          simpa [size_ne] using new

theorem goesThrough_of_sized (bid : Bool) (kept : ∀ level ∈ side, level.sized ≠ 0) :
    s.GoesThrough reg side bid instrument := by
  intro entries parsed
  rw [ConnectionBaseMD.publishQuotes_complete_iff]
  generalize s.known = known
  induction side generalizing entries known with
  | nil =>
      obtain rfl : [] = entries := Option.some.inj parsed
      trivial
  | cons level side ih =>
      obtain ⟨here, later⟩ := List.forall_mem_cons.mp kept
      obtain ⟨entry, rest, first, parsedRest, rfl⟩ := parseQuote_cons parsed
      refine ⟨.inr ?_, ih later rest parsedRest _⟩
      simp [Known.unmatched, parseLevel_kept first here]

end Publishing

end SpotGridBot.Feed
