import SpotGridBot.Core.OrderText
import SpotGridBot.OKX.ConnectionORD
import SpotGridBot.Utils.Base64

namespace SpotGridBot.OKX.ConnectionORD
open Utils SpotGridBot.Core JsonText

def sign (hmac : String → String → Fin 32 → UInt8)
    (timeStampStr requestType requestPath requestBody secretkeyOrd : String) : String :=
  String.ofList (LibBase64.encode
    (List.ofFn (hmac secretkeyOrd (timeStampStr ++ requestType ++ requestPath ++ requestBody))))

/-- A signature tells apart all requests whose digests differ. -/
theorem sign_eq_iff (hmac : String → String → Fin 32 → UInt8)
    {timeStampStr requestType requestPath requestBody : String}
    {timeStampStr' requestType' requestPath' requestBody' : String} (secretkeyOrd : String) :
    sign hmac timeStampStr requestType requestPath requestBody secretkeyOrd =
        sign hmac timeStampStr' requestType' requestPath' requestBody' secretkeyOrd ↔
      hmac secretkeyOrd (timeStampStr ++ requestType ++ requestPath ++ requestBody) =
        hmac secretkeyOrd (timeStampStr' ++ requestType' ++ requestPath' ++ requestBody') := by
  unfold sign
  rw [String.ofList_inj, LibBase64.encode_injective.eq_iff, List.ofFn_inj]

section SendOrder
variable (reg : Registry) (tdMode : String) (o : OrderRequest)

def ordType : String :=
  match o.timeInForce with
  | .ioc => "ioc"
  | .fok => "fok"
  | _ => if o.isMarketOrder then "market" else "limit"

def sendOrderBody : String :=
  "\x7b" ++
  "\"instId\":\"" ++ reg.translateSymbolToExchangeSpecific o.instrument ++ "\"," ++
  (if o.clientOrderId = "" then "" else "\"clOrdId\":\"" ++ o.clientOrderId ++ "\",") ++
  "\"tdMode\":\"" ++ tdMode ++ "\"," ++
  "\"side\":\"" ++ (if o.side = .buy then "buy" else "sell") ++ "\"," ++
  "\"ordType\":\"" ++ ordType o ++ "\"," ++
  (if o.isMarketOrder then ""
    else "\"px\":\"" ++ toStringWithPrecision o.price (reg.precision o.instrument) ++ "\",") ++
  "\"sz\":\"" ++ toStringWithPrecision o.quantity ++ "\"" ++
  "\x7d"

def sendOrderTexts : Texts :=
  [("instId", reg.translateSymbolToExchangeSpecific o.instrument)] ++
  (if o.clientOrderId = "" then [] else [("clOrdId", o.clientOrderId)]) ++
  [("tdMode", tdMode), ("side", if o.side = .buy then "buy" else "sell"), ("ordType", ordType o)] ++
  (if o.isMarketOrder then []
    else [("px", toStringWithPrecision o.price (reg.precision o.instrument))]) ++
  [("sz", toStringWithPrecision o.quantity)]

theorem toList_sendOrderBody : (sendOrderBody reg tdMode o).toList =
    objectText (sendOrderTexts reg tdMode o).chars := by
  unfold sendOrderBody sendOrderTexts
  split_ifs
  all_goals simp [Texts.chars, objectText, laterText, memberText]

theorem distinct_names : ((sendOrderTexts reg tdMode o).map Prod.fst).Nodup := by
  unfold sendOrderTexts
  split_ifs
  all_goals simp

variable {reg tdMode o} {base quote : String}

theorem plain_texts (listed : Listed reg o.instrument base quote)
    (plainBase : ∀ c ∈ base.toList, Plain c) (plainQuote : ∀ c ∈ quote.toList, Plain c)
    (plainMode : ∀ c ∈ tdMode.toList, Plain c) (plainId : ∀ c ∈ o.clientOrderId.toList, Plain c) :
    (sendOrderTexts reg tdMode o).Made Plain Plain := by
  have side : ∀ c ∈ (if o.side = .buy then "buy" else "sell").toList, Plain c := by
    split
    · exact plain_of_all rfl
    · exact plain_of_all rfl
  have type : ∀ c ∈ (ordType o).toList, Plain c := by
    unfold ordType
    split
    · exact plain_of_all rfl
    · exact plain_of_all rfl
    · split
      · exact plain_of_all rfl
      · exact plain_of_all rfl
  have instId : Texts.Made Plain Plain [("instId", _)] :=
    .cons (plain_of_all rfl) (listed.plain_dashed plainBase plainQuote) .nil
  have client : Texts.Made Plain Plain [("clOrdId", _)] := .cons (plain_of_all rfl) plainId .nil
  have middle : Texts.Made Plain Plain [("tdMode", _), ("side", _), ("ordType", _)] :=
    .cons (plain_of_all rfl) plainMode
      (.cons (plain_of_all rfl) side (.cons (plain_of_all rfl) type .nil))
  have price : Texts.Made Plain Plain [("px", _)] :=
    .cons (plain_of_all rfl) (plain_printed o.price (reg.precision o.instrument)) .nil
  have size : Texts.Made Plain Plain [("sz", _)] :=
    .cons (plain_of_all rfl) (plain_printed o.quantity 6) .nil
  exact (((instId.append (.ite .nil client)).append middle).append (.ite .nil price)).append size

end SendOrder

structure Answers (toLong : Json → Option ℤ) (asked answer : Members) (orderId state : String) :
    Prop where
  repeats : answer.Repeats asked
  orderId : answer.lookup "ordId" = some (.scalar orderId)
  clOrdID : ∃ text, answer.lookup "clOrdId" = some (.scalar text)
  state : answer.lookup "state" = some (.scalar state)
  uTime : ∃ text time, answer.lookup "uTime" = some (.scalar text) ∧
    toLong (.scalar text) = some time

structure Responds (c : Conversions) (toLong : Json → Option ℤ) (asked response : Members)
    (orderId state : String) : Prop where
  noError : (getOrderActionResult c toLong response).map (·.state.code) = some 0
  answered : ∃ element rest answer, response.getArray "data" = some (element :: rest) ∧
    c.struct element = some answer ∧ Answers toLong asked answer orderId state

section ReadBack
variable {reg : Registry} {tdMode : String} {o : OrderRequest} {base quote : String}
  {c : Conversions} {toLong : Json → Option ℤ}

theorem getValue_of_lookup {members : Members} {name text : String}
    (found : members.lookup name = some (.scalar text)) :
    members.getValue c.print name = some text := by
  rw [Members.getValue, found]
  rfl

theorem getVal_of_lookup (reads : ReadsNumerals fun text => c.toDouble (.scalar text))
    {members : Members} {name : String} {value : ℚ} {n : ℤ}
    (found : members.lookup name = some (.scalar (toStringWithPrecision value n))) :
    getVal c members name = kept value n := by
  have element : members.element name = some (.scalar (toStringWithPrecision value n)) := by
    rw [Members.element, found]
  have number := reads.printed value n
  simp [getVal, Conversions.number, element, number]

theorem translateElement_readsBack (formatTimestamp : ℤ → String)
    (listed : Listed reg o.instrument base quote)
    (reads : ReadsNumerals fun text => c.toDouble (.scalar text)) {answer : Members}
    {orderId state : String}
    (answers : Answers toLong (sendOrderTexts reg tdMode o).document answer orderId state) :
    ∃ report, translateElement reg c toLong formatTimestamp answer = some report ∧
      report.orderId = orderId ∧ o.ReadsBack (reg.precision o.instrument) report.order ∧
      (report.ordType = .market ↔
        o.isMarketOrder = true ∧ o.timeInForce ≠ .ioc ∧ o.timeInForce ≠ .fok) ∧
      report.tif = (match o.timeInForce with
        | .ioc => .ioc
        | .fok => .fok
        | _ => .gtc) := by
  have asked (name text : String) (member : (name, text) ∈ sendOrderTexts reg tdMode o) :
      answer.lookup name = some (.scalar text) :=
    answers.repeats _ _ (Texts.lookup_of_mem (distinct_names reg tdMode o) member)
  obtain ⟨clOrdID, client⟩ := answers.clOrdID
  obtain ⟨text, time, stamped, long⟩ := answers.uTime
  have instId : answer.getValue c.print "instId" = _ := getValue_of_lookup
    (asked "instId" (reg.translateSymbolToExchangeSpecific o.instrument) (by simp [sendOrderTexts]))
  have side : answer.getValue c.print "side" = _ := getValue_of_lookup
    (asked "side" (if o.side = .buy then "buy" else "sell") (by simp [sendOrderTexts]))
  have type : answer.getValue c.print "ordType" = _ := getValue_of_lookup
    (asked "ordType" (ordType o) (by simp [sendOrderTexts]))
  have size := getVal_of_lookup reads
    (asked "sz" (toStringWithPrecision o.quantity) (by simp [sendOrderTexts]))
  have price : o.isMarketOrder = false → Rounded (getVal c answer "px") o.price
      (reg.precision o.instrument) := by
    intro limit
    rw [getVal_of_lookup reads (asked "px"
      (toStringWithPrecision o.price (reg.precision o.instrument)) (by simp [sendOrderTexts, limit]))]
    exact rounded_kept o.price _
  have sent : o.clientOrderId ≠ "" → clOrdID = o.clientOrderId := by
    intro given
    have found := asked "clOrdId" o.clientOrderId (by simp [sendOrderTexts, given])
    exact Json.scalar.inj (Option.some.inj (client.symm.trans found))
  have element : answer.element "uTime" = some (.scalar text) := by
    rw [Members.element, stamped]
  refine ⟨_, by
    simp only [translateElement, getValue_of_lookup answers.orderId, getValue_of_lookup client,
      getValue_of_lookup answers.state, type, instId, element, side, size,
      Option.bind_eq_bind, Option.bind_some, long]
    rfl, rfl, ?_, ?_, ?_⟩
  · exact {
      instrument := listed.readsBack.exchangeSpecific
      side := by
        dsimp only [ExecutionReportData.order]
        split <;> rfl
      quantity := rounded_kept o.quantity 6
      price := price
      clientOrderId := sent }
  · show (if ordType o = "market" then OrdType.market else .limit) = .market ↔ _
    cases tif : o.timeInForce with
    | ioc => simp [ordType, tif]
    | fok => simp [ordType, tif]
    | _ => cases market : o.isMarketOrder <;> simp [ordType, tif, market]
  · show (if ordType o = "fok" then TimeInForce.fok
        else if ordType o = "ioc" ∨ ordType o = "optimal_limit_ioc" then .ioc else .gtc) = _
    cases tif : o.timeInForce with
    | ioc => simp [ordType, tif]
    | fok => simp [ordType, tif]
    | _ => cases market : o.isMarketOrder <;> simp [ordType, tif, market]

/-- What is sent is reported, up to the decimals that are printed. -/
theorem sendOrder_readsBack (numberText : List Char → String) (formatTimestamp : ℤ → String)
    (listed : Listed reg o.instrument base quote)
    (plainBase : ∀ c ∈ base.toList, Plain c) (plainQuote : ∀ c ∈ quote.toList, Plain c)
    (plainMode : ∀ c ∈ tdMode.toList, Plain c) (plainId : ∀ c ∈ o.clientOrderId.toList, Plain c)
    (reads : ReadsNumerals fun text => c.toDouble (.scalar text)) :
    JSONDocument.parse numberText (sendOrderBody reg tdMode o) =
        some (sendOrderTexts reg tdMode o).document ∧
      ∀ response orderId state,
        Responds c toLong (sendOrderTexts reg tdMode o).document response orderId state →
        ∃ report, translateOrder reg c toLong formatTimestamp response = some [report] ∧
          report.orderId = orderId ∧ o.ReadsBack (reg.precision o.instrument) report.order ∧
          (report.ordType = .market ↔
            o.isMarketOrder = true ∧ o.timeInForce ≠ .ioc ∧ o.timeInForce ≠ .fok) ∧
          report.tif = (match o.timeInForce with
            | .ioc => .ioc
            | .fok => .fok
            | _ => .gtc) := by
  constructor
  · have plain := plain_texts listed plainBase plainQuote plainMode plainId
    exact Texts.parse_objectText numberText plain (toList_sendOrderBody reg tdMode o)
  · intro response orderId state responds
    obtain ⟨element, rest, answer, data, found, answers⟩ := responds.answered
    obtain ⟨oar, read, code⟩ := Option.map_eq_some_iff.mp responds.noError
    have listedData : oar.data = some (element :: rest) := by
      simp only [getOrderActionResult, Option.bind_eq_bind, Option.bind_eq_some_iff] at read
      obtain ⟨_, -, made⟩ := read
      rw [← Option.some.inj made, data]
    obtain ⟨report, translated, reported⟩ :=
      translateElement_readsBack formatTimestamp listed reads answers
    refine ⟨report, ?_, reported⟩
    simp only [translateOrder, Option.bind_eq_bind, read, Option.bind_some, code, ne_eq,
      not_true_eq_false, if_false, listedData, found, translated]

end ReadBack

def euroAnswer : Members :=
  ("ordId", .scalar "521023829901148160") :: ("state", .scalar "live") ::
    ("uTime", .scalar "1670493761203") :: (sendOrderTexts Registry.majors "cash" euroOrder).document

def euroResponse : Members :=
  [("code", .scalar "0"), ("data", .array [.object euroAnswer]), ("msg", .scalar "")]

theorem sendOrder_readsBack_euro :
    ∃ report, translateOrder Registry.majors libraryConversions longOfText (fun _ => "")
        euroResponse = some [report] ∧
      euroOrder.ReadsBack (Registry.majors.precision euroOrder.instrument) report.order := by
  have own (name : String) (added : name ∈ ["ordId", "state", "uTime"]) :
      (sendOrderTexts Registry.majors "cash" euroOrder).document.lookup name = none := by
    rw [Texts.lookup_document]
    simp only [List.mem_cons, List.not_mem_nil, or_false] at added
    rcases added with rfl | rfl | rfl <;> simp [sendOrderTexts, euroOrder, List.lookup_cons,
      OrderRequest.isMarketOrder]
  have repeats : euroAnswer.Repeats (sendOrderTexts Registry.majors "cash" euroOrder).document :=
    Members.Repeats.cons (.cons (.cons (fun _ _ found => found) (own "uTime" (by decide)) _)
      (own "state" (by decide)) _) (own "ordId" (by decide)) _
  have answers : Answers longOfText (sendOrderTexts Registry.majors "cash" euroOrder).document
      euroAnswer "521023829901148160" "live" := by
    refine ⟨repeats, rfl, ⟨"grid-1", repeats _ _ ?_⟩, rfl, _, 1670493761203, rfl, by decide +kernel⟩
    apply Texts.lookup_of_mem (distinct_names Registry.majors "cash" euroOrder)
    simp [sendOrderTexts, euroOrder]
  have plainMode : ∀ c ∈ "cash".toList, Plain c := plain_of_all rfl
  have plainId : ∀ c ∈ euroOrder.clientOrderId.toList, Plain c := plain_of_all rfl
  obtain ⟨-, reported⟩ := sendOrder_readsBack (c := libraryConversions) String.ofList (fun _ => "")
    majors_listed (plain_of_all rfl) (plain_of_all rfl) plainMode plainId stod_readsNumerals
  obtain ⟨report, translated, -, readsBack, -⟩ := reported euroResponse _ _
    ⟨by decide +kernel, .object euroAnswer, [], euroAnswer, rfl, rfl, answers⟩
  exact ⟨report, translated, readsBack⟩

example : sendOrderBody Registry.majors "cash" euroOrder =
    "\x7b\"instId\":\"EUR-USD\",\"clOrdId\":\"grid-1\",\"tdMode\":\"cash\",\"side\":\"buy\"," ++
      "\"ordType\":\"limit\",\"px\":\"1.23457\",\"sz\":\"0.666667\"\x7d" := by
  decide +kernel

end SpotGridBot.OKX.ConnectionORD
