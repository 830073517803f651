import SpotGridBot.Core.JSONDocument
import SpotGridBot.Feed.LevelBatches
import SpotGridBot.Lib.Outcome
import SpotGridBot.Utils.Symbols

namespace SpotGridBot.Feed
open Utils Book

namespace PriceLevels
variable {cp cp' : CurrencyPair} {bid bid' : Bool} {price : ℚ} {side : List Level}

def clear (cp : CurrencyPair) (levels : PriceLevels) : PriceLevels :=
  fun cp' bid price => if cp = cp' then none else levels cp' bid price

theorem setSide_skips (levels : PriceLevels)
    (apart : ∀ level ∈ side, ¬ (cp = cp' ∧ bid = bid' ∧ level.priced = price)) :
    levels.setSide cp bid side cp' bid' price = levels cp' bid' price := by
  induction side generalizing levels with
  | nil => rfl
  | cons level side ih =>
      obtain ⟨here, later⟩ := List.forall_mem_cons.mp apart
      exact (ih _ later).trans (if_neg here)

theorem setSide_named (levels levels' : PriceLevels) (named : ∃ level ∈ side, level.priced = price) :
    levels.setSide cp bid side cp bid price = levels'.setSide cp bid side cp bid price := by
  induction side generalizing levels levels' with
  | nil =>
      obtain ⟨level, member, -⟩ := named
      contradiction
  | cons level side ih =>
      by_cases later : ∃ level ∈ side, level.priced = price
      · exact ih _ _ later
      · have apart : ∀ level ∈ side, ¬ (cp = cp ∧ bid = bid ∧ level.priced = price) :=
          fun level member same => later ⟨level, member, same.2.2⟩
        obtain ⟨level', member, here⟩ := named
        obtain rfl : level' = level := by
          rcases List.mem_cons.mp member with same | member
          · exact same
          · exact absurd ⟨level', member, here⟩ later
        have first : ∀ levels : PriceLevels,
            levels.setSide cp bid (level' :: side) cp bid price =
              if level'.sized = 0 then none else some level'.sized := by
          intro levels
          exact (setSide_skips _ apart).trans (if_pos ⟨rfl, rfl, here⟩)
        rw [first, first]

theorem setSides_on (levels : PriceLevels) (bids asks : List Level) :
    levels.setSides cp bids asks cp bid price =
      levels.setSide cp bid (if bid then bids else asks) cp bid price := by
  unfold setSides
  cases bid with
  | true =>
      apply setSide_skips
      rintro level - ⟨-, impossible, -⟩
      contradiction
  | false =>
      by_cases named : ∃ level ∈ asks, level.priced = price
      · exact setSide_named _ _ named
      · have apart : ∀ level ∈ asks, ¬ (cp = cp ∧ false = false ∧ level.priced = price) :=
          fun level member same => named ⟨level, member, same.2.2⟩
        refine (setSide_skips _ apart).trans (Eq.trans ?_ (setSide_skips _ apart).symm)
        apply setSide_skips
        rintro level - ⟨-, impossible, -⟩
        contradiction

theorem setSides_off (levels : PriceLevels) (bids asks : List Level) (other : cp ≠ cp') :
    levels.setSides cp bids asks cp' bid price = levels cp' bid price := by
  have apart : ∀ (side : List Level) (bid' : Bool), ∀ level ∈ side,
      ¬ (cp = cp' ∧ bid' = bid ∧ level.priced = price) := fun _ _ _ _ same => other same.1
  exact (setSide_skips _ (apart asks false)).trans (setSide_skips _ (apart bids true))

end PriceLevels

theorem Shows.prices_subset {reg : Registry} {cp : CurrencyPair} {level level' : ℚ → Option ℚ}
    {vec : QuoteVec} (shows : Shows reg cp level vec) (shows' : Shows reg cp level' vec)
    (within : ∀ price, (level price).isSome = true → (level' price).isSome = true) (price : ℚ)
    (live : (level' price).isSome = true) : (level price).isSome = true := by
  obtain ⟨prices, nodup, listed, shown⟩ := shows
  obtain ⟨prices', nodup', listed', shown'⟩ := shows'
  have lengths : prices.length = prices'.length := by
    have same := shown.length_eq.symm.trans shown'.length_eq
    rw [List.length_map, List.length_map] at same
    exact same
  have subset : prices ⊆ prices' := fun price member =>
    (listed' price).mpr (within price ((listed price).mp member))
  have perm : prices.Perm prices' :=
    (List.subperm_of_subset nodup subset).perm_of_length_le lengths.ge
  exact (listed price).mp (perm.mem_iff.mpr ((listed' price).mpr live))

end SpotGridBot.Feed

namespace SpotGridBot.OKX
open Utils SpotGridBot.Core Feed Runs

namespace ConnectionMD
variable (reg : Registry) (print : Json → String) (struct : Json → Option Members)

def msgTypeSnapshot : String := "snapshot"
def msgTypeUpdate : String := "update"
def msgTypeUnknown : String := "!UNKNOWN!"

/-- The detector of message types; `none` is an exception. -/
def messageType (jd : Members) : Option String := do
  let action ← JSONDocument.getValue (Members.convert print) "" jd "action"
  if action ≠ "" then pure action
  else
    let event ← JSONDocument.getValue (Members.convert print) "" jd "event"
    if event ≠ "" then pure event else pure msgTypeUnknown

def field (price : Json) (j : ℕ) : Option String :=
  match price with
  | .array fields => fields[j]?.bind (Members.convert print)
  | _ => none

def level (price : Json) : Option Level := do
  let text ← field print price 0
  let size ← field print price 1
  pure ⟨text, size⟩

/-- The levels of one element of `data`, which was converted to a `Poco::Dynamic::Array`; `struct` is
what its index operator goes into, `none` being an exception. -/
def levels (side : String) (element : Json) : Option (List Level) :=
  match struct element with
  | none => none
  | some members =>
      match members.lookup side with
      | some (.array prices) => prices.mapM (level print)
      | _ => some []

def sideTranslator (side : String) (jd : Members) : Option (List Level) :=
  match jd.getArray "data" with
  | none => some []
  | some data => (data.mapM (levels print struct side)).map List.flatten

def onBooks (s : ConnectionBaseMD) (jd : Members) : Outcome ConnectionBaseMD :=
  match (jd.lookup "arg").bind Json.extract with
  | none => .thrown s
  | some arg =>
      match arg.getValue print "instId" with
      | none => .thrown s
      | some instId =>
          match sideTranslator print struct "bids" jd, sideTranslator print struct "asks" jd with
          | some bids, some asks =>
              s.publishSides reg bids asks (translateSymbol instId)
          | _, _ => .thrown s

def process (s : ConnectionBaseMD) (jd : Members) : Outcome ConnectionBaseMD :=
  match messageType print jd with
  | none => .thrown s
  | some type =>
      if type = msgTypeSnapshot ∨ type = msgTypeUpdate then onBooks reg print struct s jd else .done s

end ConnectionMD

inductive Action where
  | snapshot
  | update

def Action.text : Action → String
  | .snapshot => ConnectionMD.msgTypeSnapshot
  | .update => ConnectionMD.msgTypeUpdate

structure BooksMessage (reg : Registry) (print : Json → String)
    (struct : Json → Option Members) where
  members : Members
  action : Action
  arg : Members
  instId : String
  bids : List Level
  asks : List Level
  acts : members.getValue print "action" = some action.text
  argues : members.lookup "arg" = some (.object arg)
  names : arg.getValue print "instId" = some instId
  bidden : ConnectionMD.sideTranslator print struct "bids" members = some bids
  asked : ConnectionMD.sideTranslator print struct "asks" members = some asks
  valid : (reg.getCurrencyPair (translateSymbol instId)).Valid

section Following
variable {reg : Registry} {print : Json → String} {struct : Json → Option Members}

namespace BooksMessage
variable (msg : BooksMessage reg print struct)

def cp : CurrencyPair := reg.getCurrencyPair (translateSymbol msg.instId)

def side (bid : Bool) : List Level := if bid then msg.bids else msg.asks

def follow (levels : PriceLevels) : PriceLevels :=
  match msg.action with
  | .snapshot => (levels.clear msg.cp).setSides msg.cp msg.bids msg.asks
  | .update => levels.setSides msg.cp msg.bids msg.asks

def Covers (levels : PriceLevels) : Prop := msg.action = .snapshot →
  ∀ bid price, (levels msg.cp bid price).isSome = true →
    ∃ level ∈ msg.side bid, level.priced = price

end BooksMessage

structure Channel where
  base : ConnectionBaseMD := {}
  exchange : PriceLevels := fun _ _ _ => none

namespace Channel
variable (s : Channel) (msg : BooksMessage reg print struct)

def step (s : Channel) (msg : BooksMessage reg print struct) : Channel :=
  ⟨(ConnectionMD.process reg print struct s.base msg.members).state, msg.follow s.exchange⟩

def Whole : Prop :=
  s.base.GoesThroughSides reg msg.bids msg.asks (translateSymbol msg.instId)

instance : Decidable (s.Whole msg) :=
  inferInstanceAs (Decidable (s.base.GoesThroughSides reg msg.bids msg.asks _))

def Shown (reg : Registry) (s : Channel) : Prop := ∀ cp : CurrencyPair, cp.Valid → ∀ bid,
  Shows reg cp (s.exchange cp bid) (s.base.orderBook.quotes cp bid)

end Channel

theorem process_books (s : ConnectionBaseMD) (msg : BooksMessage reg print struct) :
    ConnectionMD.process reg print struct s msg.members =
      ConnectionMD.onBooks reg print struct s msg.members := by
  have type : ConnectionMD.messageType print msg.members = some msg.action.text := by
    have acts := msg.acts
    have named : msg.action.text ≠ "" := by
      cases msg.action with
      | snapshot => decide
      | update => decide
    unfold ConnectionMD.messageType JSONDocument.getValue
    unfold Members.getValue at acts
    cases found : msg.members.lookup "action" with
    | none =>
        rw [found] at acts
        contradiction
    | some value =>
        rw [found, Option.bind_some] at acts
        cases value with
        | null => contradiction
        | _ => simp [acts, named]
  unfold ConnectionMD.process
  rw [type]
  dsimp only
  rw [if_pos]
  cases msg.action with
  | snapshot => exact .inl rfl
  | update => exact .inr rfl

theorem onBooks_done {s base : ConnectionBaseMD} {msg : BooksMessage reg print struct}
    (published : s.publishSides reg msg.bids msg.asks (translateSymbol msg.instId) = .done base) :
    ConnectionMD.onBooks reg print struct s msg.members = .done base := by
  unfold ConnectionMD.onBooks
  rw [msg.argues, Option.bind_some, Json.extract_object]
  dsimp only
  rw [msg.names, msg.bidden, msg.asked]
  exact published

theorem setSides_named {msg : BooksMessage reg print struct} {bid : Bool} {price : ℚ}
    (levels levels' : PriceLevels) (named : ∃ level ∈ msg.side bid, level.priced = price) :
    levels.setSides msg.cp msg.bids msg.asks msg.cp bid price =
      levels'.setSides msg.cp msg.bids msg.asks msg.cp bid price := by
  rw [PriceLevels.setSides_on, PriceLevels.setSides_on]
  exact PriceLevels.setSide_named levels levels' named

theorem setSides_unnamed {msg : BooksMessage reg print struct} {bid : Bool} {price : ℚ}
    (levels : PriceLevels) (unnamed : ¬ ∃ level ∈ msg.side bid, level.priced = price) :
    levels.setSides msg.cp msg.bids msg.asks msg.cp bid price = levels msg.cp bid price := by
  rw [PriceLevels.setSides_on]
  exact PriceLevels.setSide_skips levels fun level member same =>
    unnamed ⟨level, member, same.2.2⟩

theorem follow_of_covers {levels : PriceLevels} {msg : BooksMessage reg print struct}
    (covers : msg.Covers levels) :
    msg.follow levels = levels.setSides msg.cp msg.bids msg.asks := by
  unfold BooksMessage.follow
  cases action : msg.action with
  | update => rfl
  | snapshot =>
      dsimp only
      funext cp bid price
      by_cases here : msg.cp = cp
      · subst here
        by_cases named : ∃ level ∈ msg.side bid, level.priced = price
        · exact setSides_named _ _ named
        · rw [setSides_unnamed _ named, setSides_unnamed _ named]
          have gone : levels msg.cp bid price = none := by
            cases live : levels msg.cp bid price with
            | none => rfl
            | some size => exact absurd (covers action bid price (by rw [live]; rfl)) named
          rw [gone]
          exact if_pos rfl
      · rw [PriceLevels.setSides_off _ _ _ here, PriceLevels.setSides_off _ _ _ here]
        exact if_neg here

def Quotes (quoted : CurrencyPair → Bool → Level → Prop) (msg : BooksMessage reg print struct) : Prop :=
  ∀ bid, ∀ level ∈ msg.side bid, quoted msg.cp bid level

section Step
variable {quoted : CurrencyPair → Bool → Level → Prop} {s : Channel} {msg : BooksMessage reg print struct}

theorem step_refines (consistent : reg.Consistent) (texts : Texts reg quoted)
    (quotes : Quotes quoted msg) (whole : s.Whole msg)
    (refines : Refines (sent reg quoted) s.base s.exchange) :
    Refines (sent reg quoted) (s.step msg).base
      (s.exchange.setSides msg.cp msg.bids msg.asks) := by
  obtain ⟨base, published, after⟩ := publishSides_refines consistent texts msg.valid
    (quotes true) (quotes false) whole refines
  have done : (s.step msg).base = base := by
    unfold Channel.step
    rw [process_books, onBooks_done published, Outcome.state_done]
  rw [done]
  exact after

theorem not_shown_step (consistent : reg.Consistent) (texts : Texts reg quoted)
    (quotes : Quotes quoted msg) (whole : s.Whole msg)
    (refines : Refines (sent reg quoted) s.base s.exchange) (uncovered : ¬ msg.Covers s.exchange) :
    ¬ (s.step msg).Shown reg := by
  have after := step_refines consistent texts quotes whole refines
  obtain ⟨action, notAll⟩ := Classical.not_imp.mp uncovered
  obtain ⟨bid, notAll⟩ := Classical.not_forall.mp notAll
  obtain ⟨price, notAll⟩ := Classical.not_forall.mp notAll
  obtain ⟨live, unnamed⟩ := Classical.not_imp.mp notAll
  have follow : (s.step msg).exchange =
      (s.exchange.clear msg.cp).setSides msg.cp msg.bids msg.asks := by
    unfold Channel.step BooksMessage.follow
    rw [action]
  have cleared : ∀ price, s.exchange.clear msg.cp msg.cp bid price = none := fun _ => if_pos rfl
  intro shown
  have here := shown msg.cp msg.valid bid
  rw [follow] at here
  have within : ∀ price,
      ((s.exchange.clear msg.cp).setSides msg.cp msg.bids msg.asks msg.cp bid price).isSome = true →
      (s.exchange.setSides msg.cp msg.bids msg.asks msg.cp bid price).isSome = true := by
    intro price listed
    by_cases named : ∃ level ∈ msg.side bid, level.priced = price
    · rw [setSides_named s.exchange (s.exchange.clear msg.cp) named]
      exact listed
    · rw [setSides_unnamed _ named, cleared] at listed
      contradiction
  have there : (s.exchange.setSides msg.cp msg.bids msg.asks msg.cp bid price).isSome = true := by
    rw [setSides_unnamed _ unnamed]
    exact live
  have book := shows_of_refines consistent (sent_coherent texts) (sent_fits texts) after
    msg.valid bid
  have stays := here.prices_subset book within price there
  rw [setSides_unnamed _ unnamed, cleared] at stays
  contradiction

end Step

/-- As long as `PublishQuotes` comes to every level, the book shows the exchange exactly until a
snapshot leaves out a price that is there. -/
theorem shown_iff_covers (consistent : reg.Consistent)
    (quoted : CurrencyPair → Bool → Level → Prop) (texts : Texts reg quoted)
    (messages : List (BooksMessage reg print struct)) (quotes : ∀ msg ∈ messages, Quotes quoted msg)
    (whole : Along Channel.step Channel.Whole {} messages) :
    Always Channel.step (Channel.Shown reg) {} messages ↔
      Along Channel.step (fun s msg => msg.Covers s.exchange) {} messages := by
  have keep : ∀ (s : Channel) (msg : BooksMessage reg print struct), Quotes quoted msg ∧ s.Whole msg →
      Refines (sent reg quoted) s.base s.exchange → msg.Covers s.exchange →
      Refines (sent reg quoted) (s.step msg).base (s.step msg).exchange := by
    intro s msg ⟨quotes, whole⟩ refines covers
    have follow : (s.step msg).exchange = s.exchange.setSides msg.cp msg.bids msg.asks :=
      follow_of_covers covers
    rw [follow]
    exact step_refines consistent texts quotes whole refines
  exact Runs.always_iff_along keep
    (fun s refines cp valid bid =>
      shows_of_refines consistent (sent_coherent texts) (sent_fits texts) refines valid bid)
    (fun s msg ⟨quotes, whole⟩ refines uncovered =>
      not_shown_step consistent texts quotes whole refines uncovered)
    refines_empty ((along_of_forall quotes _).and whole)

end Following

theorem instId_valid : (coins.getCurrencyPair (translateSymbol "BTC-USD")).Valid := by
  decide +kernel

def bidMessage (action : Action) (size : String) : BooksMessage coins (fun _ => "") Json.extract where
  members :=
    [("action", .scalar action.text), ("arg", .object [("instId", .scalar "BTC-USD")]),
      ("data", .array [.object [("bids", .array [.array [.scalar "100", .scalar size]])]])]
  action := action
  arg := [("instId", .scalar "BTC-USD")]
  instId := "BTC-USD"
  bids := [⟨"100", size⟩]
  asks := []
  acts := rfl
  argues := rfl
  names := rfl
  bidden := rfl
  asked := rfl
  valid := instId_valid

def bidQuoted (cp : CurrencyPair) (_ : Bool) (level : Level) : Prop :=
  cp = ⟨⟨71⟩, Currency.usd⟩ ∧ (level = ⟨"100", "5"⟩ ∨ level = ⟨"100", "0"⟩)

theorem bidQuoted_texts : Texts coins bidQuoted where
  numeric := by
    rintro cp bid level ⟨-, rfl | rfl⟩ <;> decide +kernel
  plain := by
    rintro cp bid level ⟨-, rfl | rfl⟩ <;> decide
  coherent := by
    rintro cp bid level level' ⟨-, rfl | rfl⟩ ⟨-, rfl | rfl⟩ <;> exact iff_of_true rfl rfl
  fits := by
    rintro cp bid level ⟨rfl, rfl | rfl⟩ <;> decide +kernel

theorem shown_bidGone :
    Always Channel.step (Channel.Shown coins) {}
      [bidMessage .snapshot "5", bidMessage .update "0"] := by
  have pair : ∀ action size, (bidMessage action size).cp = ⟨⟨71⟩, Currency.usd⟩ := by
    intro action size
    change coins.getCurrencyPair (translateSymbol "BTC-USD") = _
    decide +kernel
  refine (shown_iff_covers coins_consistent bidQuoted bidQuoted_texts _ ?_ ?_).mpr ?_
  · intro msg member bid level listed
    rcases List.mem_cons.mp member with rfl | member
    · cases bid with
      | true => exact ⟨pair _ _, .inl (List.mem_singleton.mp listed)⟩
      | false => contradiction
    · obtain rfl := List.mem_singleton.mp member
      cases bid with
      | true => exact ⟨pair _ _, .inr (List.mem_singleton.mp listed)⟩
      | false => contradiction
  · decide +kernel
  · refine ⟨?_, ?_, trivial⟩
    · intro _ bid price live
      contradiction
    · intro impossible
      contradiction

end SpotGridBot.OKX
