import SpotGridBot.Core.OrderManager
import SpotGridBot.Core.OrderText
import SpotGridBot.Utils.NameCache

namespace SpotGridBot.Coinbase.ConnectionORD
open Utils SpotGridBot.Core JsonText

def translateSymbolToExchangeSpecific (symbol : String) : String :=
  String.ofList (symbol.toList.map fun c => if c = '/' then '-' else c)

section SendOrder
variable (names : Names) (uuid : String) (o : OrderRequest)

/-- The pair as `ToString` names it, out of the cache if it finds it there. -/
def productId : String := translateSymbolToExchangeSpecific (names.toString o.instrument).1

def side : String := if o.side = .buy then "BUY" else "SELL"

def configuration : String :=
  if o.timeInForce = .gtc then "limit_limit_gtc" else "limit_limit_ioc"

/-- `uuid` is what the generator of the client order ids gives. The type of the order and the client
order id that was given are not read. -/
def sendOrderBody : String :=
  "\x7b \"client_order_id\": \"" ++ uuid ++ "\", \"product_id\":" ++
  "\"" ++ productId names o ++ "\"" ++
  ",\"side\":" ++
  "\"" ++ side o ++ "\"" ++
  ",\"order_configuration\":\x7b" ++
  "\"" ++ configuration o ++ "\":\x7b" ++
  "\"limit_price\":" ++
  "\"" ++ toStringWithPrecision o.price ++ "\"" ++
  ",\"base_size\":" ++
  "\"" ++ toStringWithPrecision o.quantity ++ "\"" ++
  ",\"post_only\":false" ++
  "\x7d\x7d\x7d"

def sendOrderDocument : Members :=
  [("order_configuration", .object [(configuration o, .object [
      ("post_only", .scalar "false"),
      ("base_size", .scalar (toStringWithPrecision o.quantity)),
      ("limit_price", .scalar (toStringWithPrecision o.price))])]),
    ("side", .scalar (side o)),
    ("product_id", .scalar (productId names o)),
    ("client_order_id", .scalar uuid)]

section Reading
variable {α : Type*} (r : Reader α)

def limits : List (JsonText.Member α) :=
  [stringMember r ("limit_price".toList, (toStringWithPrecision o.price).toList),
    stringMember r ("base_size".toList, (toStringWithPrecision o.quantity).toList),
    ⟨"post_only".toList, [.word "false".toList], r.bool false⟩]

def configured : List (JsonText.Member α) :=
  [⟨(configuration o).toList, objectTokens (limits o r), r.object (named (limits o r))⟩]

def asked : List (JsonText.Member α) :=
  [stringMember r ("client_order_id".toList, uuid.toList),
    stringMember r ("product_id".toList, (productId names o).toList),
    stringMember r ("side".toList, (side o).toList),
    ⟨"order_configuration".toList, objectTokens (configured o r),
      r.object (named (configured o r))⟩]

theorem builds_limits : Builds r (objectTokens (limits o r)) (r.object (named (limits o r))) := by
  apply builds_object
  intro m member
  simp only [limits, List.mem_cons, List.not_mem_nil, or_false] at member
  rcases member with rfl | rfl | rfl
  · exact builds_string _
  · exact builds_string _
  · exact builds_word rfl

theorem builds_configured :
    Builds r (objectTokens (configured o r)) (r.object (named (configured o r))) := by
  apply builds_object
  intro m member
  obtain rfl := List.mem_singleton.mp member
  exact builds_limits o r

theorem builds_asked :
    Builds r (objectTokens (asked names uuid o r)) (r.object (named (asked names uuid o r))) := by
  apply builds_object
  intro m member
  simp only [asked, List.mem_cons, List.not_mem_nil, or_false] at member
  rcases member with rfl | rfl | rfl | rfl
  · exact builds_string _
  · exact builds_string _
  · exact builds_string _
  · exact builds_configured o r

variable {names uuid o}

theorem spells_sendOrderBody (plainUuid : ∀ c ∈ uuid.toList, Plain c)
    (plainId : ∀ c ∈ (productId names o).toList, Plain c) :
    Spells (sendOrderBody names uuid o).toList (objectTokens (asked names uuid o r)) := by
  have ofSide : ∀ c ∈ (side o).toList, Plain c := by
    unfold side
    split
    · exact plain_of_all rfl
    · exact plain_of_all rfl
  have ofConfiguration : ∀ c ∈ (configuration o).toList, Plain c := by
    unfold configuration
    split
    · exact plain_of_all rfl
    · exact plain_of_all rfl
  have opening : Spells "\x7b \"client_order_id\": ".toList
      [.openObject, .string "client_order_id".toList, .colon] :=
    spells_of_advance (by decide +kernel)
  have product : Spells ", \"product_id\":".toList
      [.comma, .string "product_id".toList, .colon] :=
    spells_of_advance (by decide +kernel)
  have sides : Spells ",\"side\":".toList [.comma, .string "side".toList, .colon] :=
    spells_of_advance (by decide +kernel)
  have nested : Spells ",\"order_configuration\":\x7b".toList
      [.comma, .string "order_configuration".toList, .colon, .openObject] :=
    spells_of_advance (by decide +kernel)
  have price : Spells ":\x7b\"limit_price\":".toList
      [.colon, .openObject, .string "limit_price".toList, .colon] :=
    spells_of_advance (by decide +kernel)
  have size : Spells ",\"base_size\":".toList [.comma, .string "base_size".toList, .colon] :=
    spells_of_advance (by decide +kernel)
  have closing : Spells ",\"post_only\":false\x7d\x7d\x7d".toList
      [.comma, .string "post_only".toList, .colon, .word "false".toList,
        .closeObject, .closeObject, .closeObject] :=
    spells_of_advance (by decide +kernel)
  have spells := opening.append ((spells_string plainUuid).append (product.append
    ((spells_string plainId).append (sides.append ((spells_string ofSide).append (nested.append
      ((spells_string ofConfiguration).append (price.append
        ((spells_string (plain_printed o.price 6)).append (size.append
          ((spells_string (plain_printed o.quantity 6)).append closing)))))))))))
  have text : (sendOrderBody names uuid o).toList =
      "\x7b \"client_order_id\": ".toList ++ ('"' :: uuid.toList ++ ['"'] ++
      (", \"product_id\":".toList ++ ('"' :: (productId names o).toList ++ ['"'] ++
      (",\"side\":".toList ++ ('"' :: (side o).toList ++ ['"'] ++
      (",\"order_configuration\":\x7b".toList ++ ('"' :: (configuration o).toList ++ ['"'] ++
      (":\x7b\"limit_price\":".toList ++ ('"' :: (toStringWithPrecision o.price).toList ++ ['"'] ++
      (",\"base_size\":".toList ++ ('"' :: (toStringWithPrecision o.quantity).toList ++ ['"'] ++
        ",\"post_only\":false\x7d\x7d\x7d".toList))))))))))) := by
    unfold sendOrderBody
    -- With the numbers still in it, the text is evaluated.
    generalize toStringWithPrecision o.price = price
    generalize toStringWithPrecision o.quantity = size
    generalize productId names o = product
    generalize side o = side
    generalize configuration o = configuration
    simp
  rw [text]
  simpa only [asked, configured, limits, stringMember, objectTokens, laterTokens, List.cons_append,
    List.nil_append] using spells

end Reading

variable {names uuid o}

theorem parse_sendOrderBody (numberText : List Char → String)
    (plainUuid : ∀ c ∈ uuid.toList, Plain c) (plainId : ∀ c ∈ (productId names o).toList, Plain c) :
    JSONDocument.parse numberText (sendOrderBody names uuid o) =
      some (sendOrderDocument names uuid o) := by
  rw [JSONDocument.parse, read_of_spells (spells_sendOrderBody (jsonReader numberText) plainUuid
    plainId) (builds_asked names uuid o (jsonReader numberText)), Option.bind_some]
  have text (s : String) : String.ofList s.toList = s := String.ofList_toList
  simp [sendOrderDocument, asked, configured, limits, stringMember, named, jsonReader, Members.set,
    text]
  rfl

end SendOrder

def readOrder (reg : Registry) (print : Json → String) (document : Members) :
    Option OrderRequest := do
  let clientOrderId ← document.getValue print "client_order_id"
  let product ← document.getValue print "product_id"
  let side ← document.getValue print "side"
  let configuration ← (document.lookup "order_configuration").bind Json.extract
  let (timeInForce, limits) ←
    ((configuration.lookup "limit_limit_gtc").map ((TimeInForce.gtc, ·))) <|>
      (configuration.lookup "limit_limit_ioc").map ((TimeInForce.ioc, ·))
  let limits ← limits.extract
  let price ← limits.getValue print "limit_price" >>= stod
  let quantity ← limits.getValue print "base_size" >>= stod
  some {
    instrument := reg.getCurrencyPair (translateSymbol product)
    side := if side = "BUY" then .buy else .sell
    orderType := .limit
    timeInForce, price, quantity, clientOrderId }

section Asked
variable {names : Names} {pairs : Set CurrencyPair} {uuid : String} {o : OrderRequest}
  {base quote : String}

theorem productId_eq (listed : Listed names.reg o.instrument base quote)
    (named : (names.toString o.instrument).1 = names.reg.toString o.instrument) :
    productId names o = names.reg.translateSymbolToExchangeSpecific o.instrument := by
  have nonempty : ¬ o.instrument.Empty := fun empty => listed.valid.1.1 empty.1
  have keeps (symbol : List Char) (plain : '/' ∉ symbol) :
      symbol.map (fun c => if c = '/' then '-' else c) = symbol := by
    apply (List.map_congr_left ?_).trans (List.map_id symbol)
    intro c member
    have other : c ≠ '/' := by
      rintro rfl
      exact plain member
    exact if_neg other
  have plain := listed.sound.symbol_plain o.instrument.baseCCY
  have plain' := listed.sound.symbol_plain o.instrument.quoteCCY
  apply String.toList_injective
  rw [productId, named, translateSymbolToExchangeSpecific, String.toList_ofList,
    Registry.toList_toString nonempty, Registry.toList_exchangeSpecific, List.map_append,
    List.map_cons, keeps _ plain.2, keeps _ plain'.2, if_pos rfl]

structure Asks (o : OrderRequest) (uuid : String) (asked : OrderRequest) : Prop where
  instrument : asked.instrument = o.instrument
  side : asked.side = if o.side = .buy then .buy else .sell
  timeInForce : asked.timeInForce = if o.timeInForce = .gtc then .gtc else .ioc
  price : Rounded asked.price o.price 6
  quantity : Rounded asked.quantity o.quantity 6
  clientOrderId : asked.clientOrderId = uuid

theorem readOrder_document (uuid : String) (print : Json → String)
    (listed : Listed names.reg o.instrument base quote)
    (named : (names.toString o.instrument).1 = names.reg.toString o.instrument) :
    ∃ asked, readOrder names.reg print (sendOrderDocument names uuid o) = some asked ∧
      Asks o uuid asked := by
  have pair : names.reg.getCurrencyPair (translateSymbol (productId names o)) =
      o.instrument := by
    rw [productId_eq listed named]
    exact listed.readsBack.exchangeSpecific
  have price := stod_readsNumerals.printed o.price 6
  have quantity := stod_readsNumerals.printed o.quantity 6
  have reads : readOrder names.reg print (sendOrderDocument names uuid o) = some {
      instrument := names.reg.getCurrencyPair (translateSymbol (productId names o))
      side := if side o = "BUY" then .buy else .sell
      orderType := .limit
      timeInForce := if o.timeInForce = .gtc then .gtc else .ioc
      price := kept o.price
      quantity := kept o.quantity
      clientOrderId := uuid } := by
    by_cases gtc : o.timeInForce = .gtc
    · simp [readOrder, sendOrderDocument, configuration, gtc, Members.getValue, Members.convert,
        List.lookup_cons, price, quantity]
    · simp [readOrder, sendOrderDocument, configuration, gtc, Members.getValue, Members.convert,
        List.lookup_cons, price, quantity]
  refine ⟨_, reads, ?_, ?_, ?_, ?_, ?_, ?_⟩
  all_goals dsimp only
  · exact pair
  · unfold side
    split
    · rfl
    · rfl
  · exact rounded_kept o.price 6
  · exact rounded_kept o.quantity 6

def limitOrder (cp : CurrencyPair) (side : Side) (price quantity : ℚ) : OrderRequest where
  instrument := cp
  side := side
  orderType := .limit
  timeInForce := .gtc
  price := price
  quantity := quantity

/-- The order that the exchange is asked for is the one that is cached, up to the sixth decimal. -/
theorem asked_cached (numberText : List Char → String) (print : Json → String) (uuid : String)
    (m : OrderManager) (price quantity : ℚ) {cp : CurrencyPair} {side : Side} {reply : Reply}
    {orderId : OrderId} (holds : names.Holds pairs) (apart : pairs.Pairwise CurrencyPair.Apart)
    (known : cp ∈ pairs) (listed : Listed names.reg cp base quote)
    (plainBase : ∀ c ∈ base.toList, Plain c) (plainQuote : ∀ c ∈ quote.toList, Plain c)
    (plainUuid : ∀ c ∈ uuid.toList, Plain c) (valid : side ≠ .invalid)
    (accepted : reply.acceptedId = some orderId) :
    ∃ m' order asked, m.placeLimitOrder side price quantity reply = some (orderId, m') ∧
      m'.orders orderId = some order ∧
      (JSONDocument.parse numberText
        (sendOrderBody names uuid (limitOrder cp side price quantity))).bind
          (readOrder names.reg print) = some asked ∧
      asked.instrument = cp ∧ asked.side = order.side ∧ asked.timeInForce = .gtc ∧
      Rounded asked.price order.price 6 ∧ Rounded asked.quantity order.quantity 6 ∧
      asked.clientOrderId = uuid := by
  obtain ⟨-, none, -⟩ | ⟨-, none, -⟩ | ⟨orderId', -, named, placed⟩ :=
    m.placeLimitOrder_cases side price quantity reply
  · rw [none] at accepted
    cases accepted
  · rw [none] at accepted
    cases accepted
  · obtain rfl := Option.some.inj (named.symm.trans accepted)
    have name := holds.toString_eq apart known
    have plainId : ∀ c ∈ (productId names (limitOrder cp side price quantity)).toList,
        Plain c := by
      rw [productId_eq listed name]
      exact listed.plain_dashed plainBase plainQuote
    obtain ⟨asked, reads, asks⟩ := readOrder_document uuid print
      (show Listed names.reg (limitOrder cp side price quantity).instrument base quote from listed)
      name
    refine ⟨_, _, asked, placed, Function.update_self .., ?_, asks.instrument, ?_, asks.timeInForce,
      asks.price, asks.quantity, asks.clientOrderId⟩
    · rw [parse_sendOrderBody numberText plainUuid plainId, Option.bind_some]
      exact reads
    · rw [asks.side]
      cases side with
      | buy => rfl
      | sell => rfl
      | invalid => exact absurd rfl valid

end Asked

theorem asked_cached_sevenDecimals :
    ∃ m' order asked,
      OrderManager.placeLimitOrder ⟨fun _ => none, fun _ => 0⟩ .buy (12345678 / 10000000) 1
        (.accepted "42") = some ("42", m') ∧
      m'.orders "42" = some order ∧
      (JSONDocument.parse String.ofList (sendOrderBody ⟨Registry.majors, []⟩
        "7f0c2a4e-63d1-4b7e-9a51-0d3c8be2f416"
        (limitOrder ⟨Currency.eur, Currency.usd⟩ .buy (12345678 / 10000000) 1))).bind
          (readOrder Registry.majors fun _ => "") = some asked ∧
      asked.price ≠ order.price := by
  have holds : Names.Holds { cp | cp.Valid } ⟨Registry.majors, []⟩ :=
    Names.holds_empty Registry.majors _
  obtain ⟨m', order, asked, placed, cached, reads, -, -, -, price, -⟩ :=
    asked_cached String.ofList (fun _ => "") "7f0c2a4e-63d1-4b7e-9a51-0d3c8be2f416"
      ⟨fun _ => none, fun _ => 0⟩ (12345678 / 10000000) 1 holds CurrencyPair.valid_apart
      (show CurrencyPair.Valid ⟨Currency.eur, Currency.usd⟩ by decide) majors_listed
      (plain_of_all rfl) (plain_of_all rfl) (plain_of_all rfl) (show Side.buy ≠ .invalid by decide)
      (show (Reply.accepted "42").acceptedId = some "42" from rfl)
  refine ⟨m', order, asked, placed, cached, reads, fun same => ?_⟩
  cases placed
  cases cached
  obtain ⟨units, whole⟩ := price.exact_iff.mp same
  have tenth : (12345678 : ℚ) = 10 * units := by
    have six : decimals 6 = 6 := rfl
    rw [← whole, six]
    norm_num
  have count : 12345678 = 10 * units := by exact_mod_cast tenth
  omega

end SpotGridBot.Coinbase.ConnectionORD
