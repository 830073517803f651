import SpotGridBot.Core.JSONDocument
import SpotGridBot.Coinbase.UserChannel
import SpotGridBot.Feed.Refinement
import SpotGridBot.Utils.Symbols

namespace SpotGridBot.Coinbase
open Utils SpotGridBot.Core Feed Runs

namespace ConnectionMD
variable (reg : Registry) (print : Json → String) (extract : Json → Option Members)
  (returns : ℕ → Bool)

/-- One level is parsed and published. `returns` says of each call of the callback of the book
whether it returns; where it throws, the published quote is not counted. -/
def publishLevel (s : ConnectionBaseMD) (level : Level) (quoteType : Char) (cp : CurrencyPair) :
    Outcome ConnectionBaseMD :=
  match s.publishLevels reg [level] quoteType (reg.toString cp) with
  | none => .thrown s
  | some s' =>
      if s'.orderBook.actions = s.orderBook.actions ∨ returns s'.orderBook.actions = true then
        .done s'
      else .thrown { s' with publishedQuotesCounter := s.publishedQuotesCounter }

def publishUpdate (cp : CurrencyPair) (s : ConnectionBaseMD) (updateObj : Members) :
    Outcome ConnectionBaseMD :=
  match updateObj.getValue print "side", updateObj.getValue print "price_level",
    updateObj.getValue print "new_quantity" with
  | some side, some price, some qty =>
      publishLevel reg returns s ⟨price, qty⟩ (if side = "bid" then '0' else '1') cp
  | _, _, _ => .thrown s

def onEvent (s : ConnectionBaseMD) (eventObj : Members) : Outcome ConnectionBaseMD :=
  match eventObj.getValue print "product_id" with
  | none => .thrown s
  | some productId =>
      let cp := reg.getCurrencyPair (translateSymbol productId)
      if ¬ cp.Valid then .done s
      else
        match eventObj.getValue print "type" with
        | none => .thrown s
        | some eventType =>
            if eventType = "update" then
              match eventObj.getArray "updates" with
              | some updates => forObjects extract (publishUpdate reg print returns cp) s updates
              | none => .done s
            else .done s

def onL2Data (s : ConnectionBaseMD) (jd : Members) : Outcome ConnectionBaseMD :=
  match jd.getArray "events" with
  | some events => forObjects extract (onEvent reg print extract returns) s events
  | none => .done s

end ConnectionMD

structure L2Level (print : Json → String) where
  members : Members
  side : String
  level : Level
  sided : members.getValue print "side" = some side
  priced : members.getValue print "price_level" = some level.price
  sized : members.getValue print "new_quantity" = some level.size
  numeric : level.Numeric
  plain : '_' ∉ level.price.toList

structure L2Event (reg : Registry) (print : Json → String) where
  members : Members
  type : EventType
  productId : String
  levels : List (L2Level print)
  typed : members.getValue print "type" = some type.text
  product : members.getValue print "product_id" = some productId
  valid : (reg.getCurrencyPair (translateSymbol productId)).Valid
  listed : (members.getArray "updates").getD [] = levels.map fun level => .object level.members

structure L2Message (reg : Registry) (print : Json → String) where
  members : Members
  events : List (L2Event reg print)
  listed : (members.getArray "events").getD [] = events.map fun event => .object event.members

section Meaning
variable {reg : Registry} {print : Json → String}

namespace L2Event
variable (event : L2Event reg print)

def message (level : L2Level print) : LevelMessage reg where
  instrument := translateSymbol event.productId
  bid := level.side == "bid"
  level := level.level
  valid := event.valid
  numeric := level.numeric
  plain := level.plain

def messages : List (LevelMessage reg) := event.levels.map event.message

def updates : List (LevelMessage reg) :=
  match event.type with
  | .snapshot => []
  | .update => event.messages

end L2Event

namespace L2Message
variable (msg : L2Message reg print)

def levels : List (LevelMessage reg) := msg.events.flatMap L2Event.messages

def updates : List (LevelMessage reg) := msg.events.flatMap L2Event.updates

def published (extract : Json → Option Members) : List (LevelMessage reg) :=
  match extract (.object []) with
  | some _ => msg.updates
  | none => []

end L2Message

def PriceLevels.setAll (levels : PriceLevels) (messages : List (LevelMessage reg)) : PriceLevels :=
  run PriceLevels.receive levels (messages.map FeedEvent.level)

def PriceLevels.follow (levels : PriceLevels) (msg : L2Message reg print) : PriceLevels :=
  PriceLevels.setAll levels msg.levels

def RestIdle (extract : Json → Option Members) (levels : PriceLevels) (msg : L2Message reg print) :
    Prop :=
  PriceLevels.setAll levels msg.levels = PriceLevels.setAll levels (msg.published extract)

end Meaning

section Handler
variable {reg : Registry} {print : Json → String} {extract : Json → Option Members}
  {returns : ℕ → Bool} (s : ConnectionBaseMD)

theorem getCurrencyPair_toString (sound : reg.Sound) {symbol : String}
    (valid : (reg.getCurrencyPair symbol).Valid) :
    reg.getCurrencyPair (reg.toString (reg.getCurrencyPair symbol)) =
      reg.getCurrencyPair symbol := by
  obtain ⟨base, quote, found, found'⟩ := reg.parse_registered _ valid
  change reg.strToVal.lookup base = some (reg.getCurrencyPair symbol).baseCCY at found
  change reg.strToVal.lookup quote = some (reg.getCurrencyPair symbol).quoteCCY at found'
  generalize reg.getCurrencyPair symbol = cp at valid found found'
  have text : (reg.toString cp).toList = base.toList ++ '/' :: quote.toList := by
    rw [Registry.toList_toString fun empty => valid.1.1 empty.1, sound.consistent.symbol_eq found,
      sound.consistent.symbol_eq found']
  rw [Registry.getCurrencyPair, text, sound.parse_slash (sound.plain base _ found).2]
  simp [Registry.currency, found, found']

theorem publishUpdate_level (always : ∀ call, returns call = true) (level : L2Level print)
    (cp : CurrencyPair) :
    ConnectionMD.publishUpdate reg print returns cp s level.members =
      match s.publishLevels reg [level.level] (if level.side = "bid" then '0' else '1')
        (reg.toString cp) with
      | some s => .done s
      | none => .thrown s := by
  unfold ConnectionMD.publishUpdate ConnectionMD.publishLevel
  rw [level.sided, level.priced, level.sized]
  dsimp only
  split
  next threw => rw [threw]
  next s' publishes => rw [publishes, if_pos (.inr (always _))]

theorem publishUpdate_done (sound : reg.Sound) (always : ∀ call, returns call = true)
    (event : L2Event reg print) (level : L2Level print) :
    ConnectionMD.publishUpdate reg print returns
      (reg.getCurrencyPair (translateSymbol event.productId)) s level.members =
        .done (s.receive (.level (event.message level))) := by
  have reread := getCurrencyPair_toString sound event.valid
  have side : (if level.side = "bid" then '0' else '1') = (event.message level).side := by
    simp [LevelMessage.side, L2Event.message]
  generalize message : event.message level = m at side
  have own : level.level = m.level ∧ translateSymbol event.productId = m.instrument := by
    rw [← message]
    exact ⟨rfl, rfl⟩
  rw [own.2] at reread ⊢
  have turn : parseLevel reg m.side (reg.toString (reg.getCurrencyPair m.instrument)) =
      parseLevel reg m.side m.instrument := by
    funext level
    unfold parseLevel
    rw [reread]
  have parsed : parseQuote reg [m.level] m.side (reg.toString (reg.getCurrencyPair m.instrument)) =
      parseQuote reg [m.level] m.side m.instrument := by
    unfold parseQuote
    rw [turn]
  have published : s.publishLevels reg [m.level] m.side
      (reg.toString (reg.getCurrencyPair m.instrument)) =
      s.publishLevels reg [m.level] m.side m.instrument :=
    congrArg (Option.map fun entries => (s.publishQuotes reg entries).1) parsed
  obtain ⟨s', publishes⟩ := s.publishLevels_isSome reg
    (List.forall_mem_singleton.mpr m.numeric) m.side m.instrument
  have received : s.receive (.level m) = s' := congrArg (fun base => base.getD s) publishes
  rw [publishUpdate_level s always, side, own.1, published, publishes, received]

theorem onEvent_done (sound : reg.Sound) (keeps : Keeps extract)
    (always : ∀ call, returns call = true) (event : L2Event reg print) :
    ConnectionMD.onEvent reg print extract returns s event.members =
      .done (run ConnectionBaseMD.receive s (event.updates.map FeedEvent.level)) := by
  unfold ConnectionMD.onEvent L2Event.updates
  rw [event.product]
  dsimp only
  rw [if_neg (not_not.mpr event.valid), event.typed]
  dsimp only
  cases type : event.type with
  | snapshot => rfl
  | update =>
      have updates : (match event.members.getArray "updates" with
          | some updates => forObjects extract (ConnectionMD.publishUpdate reg print returns
              (reg.getCurrencyPair (translateSymbol event.productId))) s updates
          | none => .done s) =
          Outcome.forEach (ConnectionMD.publishUpdate reg print returns
            (reg.getCurrencyPair (translateSymbol event.productId))) s
            (event.levels.map L2Level.members) := by
        rw [← forObjects_keeps _ keeps, List.map_map]
        change _ = forObjects extract _ s (event.levels.map fun level => .object level.members)
        rw [← event.listed]
        cases event.members.getArray "updates" with
        | none => rfl
        | some updates => rfl
      rw [EventType.text, if_pos rfl, updates,
        Outcome.forEach_map_done fun s level => publishUpdate_done s sound always event level]
      simp [run, L2Event.messages, List.foldl_map]

theorem onL2Data_objects (msg : L2Message reg print) :
    ConnectionMD.onL2Data reg print extract returns s msg.members =
      forObjects extract (ConnectionMD.onEvent reg print extract returns) s
        ((msg.events.map L2Event.members).map .object) := by
  rw [List.map_map]
  change _ = forObjects extract _ s (msg.events.map fun event => .object event.members)
  unfold ConnectionMD.onL2Data
  rw [← msg.listed]
  cases msg.members.getArray "events" with
  | none => rfl
  | some events => rfl

theorem onL2Data_keeps (sound : reg.Sound) (keeps : Keeps extract)
    (always : ∀ call, returns call = true) (msg : L2Message reg print) :
    ConnectionMD.onL2Data reg print extract returns s msg.members =
      .done (run ConnectionBaseMD.receive s (msg.updates.map FeedEvent.level)) := by
  rw [onL2Data_objects, forObjects_keeps _ keeps,
    Outcome.forEach_map_done fun s event => onEvent_done s sound keeps always event,
    L2Message.updates, List.map_flatMap, run, List.foldl_flatMap]
  rfl

variable (extract returns) in
def ConnectionMD.step (s : ConnectionBaseMD) (msg : L2Message reg print) : ConnectionBaseMD :=
  (ConnectionMD.onL2Data reg print extract returns s msg.members).state

theorem step_published (sound : reg.Sound) (uniform : Uniform extract)
    (always : ∀ call, returns call = true) (msg : L2Message reg print) :
    ConnectionMD.step extract returns s msg =
      run ConnectionBaseMD.receive s ((msg.published extract).map FeedEvent.level) := by
  unfold ConnectionMD.step L2Message.published
  rcases uniform with keeps | drops
  · rw [onL2Data_keeps s sound keeps always, keeps, Outcome.state_done]
  · rw [onL2Data_objects, forObjects_drops _ drops, drops]
    rfl

theorem run_step (sound : reg.Sound) (uniform : Uniform extract)
    (always : ∀ call, returns call = true) (messages : List (L2Message reg print)) :
    run (ConnectionMD.step extract returns) s messages =
      run ConnectionBaseMD.receive s
        ((messages.flatMap (L2Message.published · extract)).map FeedEvent.level) := by
  induction messages generalizing s with
  | nil => rfl
  | cons msg messages ih =>
      rw [run_cons, ih, List.flatMap_cons, List.map_append, run_append,
        step_published s sound uniform always msg]

theorem run_follow {levels : PriceLevels} {messages : List (L2Message reg print)}
    (idle : Along PriceLevels.follow (RestIdle extract) levels messages) :
    run PriceLevels.follow levels messages =
      PriceLevels.setAll levels (messages.flatMap (L2Message.published · extract)) := by
  induction messages generalizing levels with
  | nil => rfl
  | cons msg messages ih =>
      have first : PriceLevels.follow levels msg =
          PriceLevels.setAll levels (msg.published extract) := idle.1
      rw [run_cons, ih idle.2, first, List.flatMap_cons, PriceLevels.setAll, PriceLevels.setAll,
        PriceLevels.setAll, List.map_append, run_append]

theorem mem_levels_of_mem_published {msg : L2Message reg print} {m : LevelMessage reg}
    (member : m ∈ msg.published extract) : m ∈ msg.levels := by
  unfold L2Message.published at member
  split at member
  · obtain ⟨event, listed, updated⟩ := List.mem_flatMap.mp member
    apply List.mem_flatMap.mpr ⟨event, listed, _⟩
    unfold L2Event.updates at updated
    split at updated
    · contradiction
    · exact updated
  · contradiction

/-- As long as what is left out of the messages has nothing to add, the books follow them. -/
theorem book_follows_l2Data (sound : reg.Sound) (uniform : Uniform extract)
    (always : ∀ call, returns call = true) (messages : List (L2Message reg print))
    (coherent : Coherent fun m => ∃ msg ∈ messages, m ∈ msg.levels)
    (fits : ∀ m, (∃ msg ∈ messages, m ∈ msg.levels) → m.level.Fits reg m.cp)
    (idle : Along PriceLevels.follow (RestIdle extract) (fun _ _ _ => none) messages) :
    ∀ cp : CurrencyPair, cp.Valid → ∀ bid,
      Shows reg cp (run PriceLevels.follow (fun _ _ _ => none) messages cp bid)
        ((run (ConnectionMD.step extract returns) {} messages).orderBook.quotes cp bid) := by
  have consistent := sound.consistent
  have sent : ∀ m, FeedEvent.level m ∈
      (messages.flatMap (L2Message.published · extract)).map FeedEvent.level →
        ∃ msg ∈ messages, m ∈ msg.levels := by
    intro m member
    obtain ⟨m', listed, same⟩ := List.mem_map.mp member
    obtain rfl := FeedEvent.level.inj same
    obtain ⟨msg, here, published⟩ := List.mem_flatMap.mp listed
    exact ⟨msg, here, mem_levels_of_mem_published published⟩
  have refines := refines_run consistent coherent _ sent refines_empty
  intro cp valid bid
  rw [run_step {} sound uniform always, run_follow idle]
  exact shows_of_refines consistent coherent fits refines valid bid

end Handler

theorem coins_sound : coins.Sound := by
  refine ⟨fun symbol value => ⟨coins_consistent.mirrored symbol value, ?_⟩,
    coins_consistent.checked, ?_⟩
  · intro text
    simp only [coins] at text
    split_ifs at text with btc eth usd
    · rw [← Option.some.inj text, btc]
      rfl
    · rw [← Option.some.inj text, eth]
      rfl
    · rw [← Option.some.inj text, usd]
      rfl
  · intro symbol value found
    have text := coins_consistent.mirrored symbol value found
    simp only [coins] at text
    split_ifs at text
    · rw [← Option.some.inj text]
      decide
    · rw [← Option.some.inj text]
      decide
    · rw [← Option.some.inj text]
      decide

def btcEvent (type : EventType) : L2Event coins fun _ => "" where
  members :=
    [("type", .scalar type.text), ("product_id", .scalar "BTC-USD"),
      ("updates", .array [.object
        [("side", .scalar "bid"), ("price_level", .scalar "100"), ("new_quantity", .scalar "5")]])]
  type := type
  productId := "BTC-USD"
  levels :=
    [{ members :=
        [("side", .scalar "bid"), ("price_level", .scalar "100"), ("new_quantity", .scalar "5")]
       side := "bid"
       level := ⟨"100", "5"⟩
       sided := rfl
       priced := rfl
       sized := rfl
       numeric := by decide +kernel
       plain := by decide }]
  typed := rfl
  product := rfl
  valid := by decide +kernel
  listed := rfl

def btcMessage (type : EventType) : L2Message coins fun _ => "" where
  members := [("events", .array [.object (btcEvent type).members])]
  events := [btcEvent type]
  listed := rfl

theorem mem_btcMessage {type : EventType} {m : LevelMessage coins}
    (sent : ∃ msg ∈ [btcMessage type], m ∈ msg.levels) :
    m.level = ⟨"100", "5"⟩ ∧ m.cp = ⟨⟨71⟩, Currency.usd⟩ := by
  obtain ⟨msg, here, member⟩ := sent
  obtain rfl := List.mem_singleton.mp here
  obtain rfl := List.mem_singleton.mp member
  have pair : coins.getCurrencyPair (translateSymbol "BTC-USD") = ⟨⟨71⟩, Currency.usd⟩ := by
    decide +kernel
  exact ⟨rfl, pair⟩

theorem btcMessage_coherent (type : EventType) :
    Coherent fun m => ∃ msg ∈ [btcMessage type], m ∈ msg.levels := by
  intro m m' sent sent' _ _
  have same := (mem_btcMessage sent).1.trans (mem_btcMessage sent').1.symm
  exact ⟨fun _ => congrArg Level.priced same, fun _ => congrArg Level.price same⟩

theorem btcMessage_fits (type : EventType) (m : LevelMessage coins)
    (sent : ∃ msg ∈ [btcMessage type], m ∈ msg.levels) : m.level.Fits coins m.cp := by
  obtain ⟨level, cp⟩ := mem_btcMessage sent
  rw [level, cp]
  decide +kernel

theorem book_follows_update :
    Shows coins ⟨⟨71⟩, Currency.usd⟩
      (run PriceLevels.follow (fun _ _ _ => none) [btcMessage .update] ⟨⟨71⟩, Currency.usd⟩ true)
      ((run (ConnectionMD.step Json.extract fun _ => true) {}
        [btcMessage .update]).orderBook.quotes ⟨⟨71⟩, Currency.usd⟩ true) ∧
    Shows coins ⟨⟨71⟩, Currency.usd⟩ (fun _ => none)
      ((run (ConnectionMD.step (fun _ => none) fun _ => true) {}
        ([] : List (L2Message coins fun _ => ""))).orderBook.quotes ⟨⟨71⟩, Currency.usd⟩ true) := by
  constructor
  · exact book_follows_l2Data coins_sound (.inl keeps_extract) (fun _ => rfl) [btcMessage .update]
      (btcMessage_coherent .update) (btcMessage_fits .update) ⟨rfl, trivial⟩ _ (by decide) true
  · exact book_follows_l2Data coins_sound (.inr drops_none) (fun _ => rfl) [] (by simp [Coherent])
      (by simp) trivial _ (by decide) true

def BooksFollow (extract : Json → Option Members) : Prop :=
  ∀ (reg : Registry) (print : Json → String), reg.Sound → ∀ messages : List (L2Message reg print),
    (Coherent fun m => ∃ msg ∈ messages, m ∈ msg.levels) →
    ∀ cp : CurrencyPair, cp.Valid → ∀ bid,
      Shows reg cp (run PriceLevels.follow (fun _ _ _ => none) messages cp bid)
        ((run (ConnectionMD.step extract fun _ => true) {} messages).orderBook.quotes cp bid)

theorem not_booksFollow {extract : Json → Option Members} (uniform : Uniform extract) :
    ¬ BooksFollow extract := by
  intro always
  obtain ⟨prices, -, present, shown⟩ := always coins (fun _ => "") coins_sound
    [btcMessage .snapshot] (btcMessage_coherent .snapshot) ⟨⟨71⟩, Currency.usd⟩ (by decide) true
  have none : (btcMessage .snapshot).published extract = [] := by
    unfold L2Message.published
    split
    · rfl
    · rfl
  have empty : (run (ConnectionMD.step extract fun _ => true) {}
      [btcMessage .snapshot]).orderBook.quotes ⟨⟨71⟩, Currency.usd⟩ true = [] := by
    rw [run_step {} coins_sound uniform fun _ => rfl, List.flatMap_singleton, none]
    rfl
  rw [empty, List.map_nil, List.nil_perm, List.map_eq_nil_iff] at shown
  have level : (run PriceLevels.follow (fun _ _ _ => .none) [btcMessage .snapshot]
      ⟨⟨71⟩, Currency.usd⟩ true 100).isSome = true := by decide +kernel
  have listed := (present 100).mpr level
  rw [shown] at listed
  exact List.not_mem_nil listed

theorem snapshot_notShown : ¬ BooksFollow Json.extract ∧ ¬ BooksFollow fun _ => none :=
  ⟨not_booksFollow (.inl keeps_extract), not_booksFollow (.inr drops_none)⟩

end SpotGridBot.Coinbase
