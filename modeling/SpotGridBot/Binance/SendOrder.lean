import SpotGridBot.Core.OrderText
import SpotGridBot.Lib.Delimited

namespace SpotGridBot.Core
open Utils

def TimeInForce.toString : TimeInForce → String
  | .day => "DAY"
  | .gtc => "GTC"
  | .opg => "OPG"
  | .ioc => "IOC"
  | .fok => "FOK"
  | .gtx => "GTX"
  | .gtd => "GTD"
  | .cls => "CLS"
  | .invalid => "INVALID"

theorem TimeInForce.ofString_toString (tif : TimeInForce) : ofString tif.toString = tif := by
  cases tif <;> rfl

end SpotGridBot.Core

namespace SpotGridBot.Binance.ConnectionORD
open Utils SpotGridBot.Core Delimited

section SendOrder
variable (reg : Registry) (recvWindow now : ℤ) (o : OrderRequest)

def sendOrderQuery : String :=
  "symbol=" ++ reg.symbol o.instrument.baseCCY ++ reg.symbol o.instrument.quoteCCY ++
  "&side=" ++ (if o.side = .buy then "BUY" else "SELL") ++
  "&type=" ++ (if o.isMarketOrder then "MARKET" else "LIMIT") ++
  (if o.isMarketOrder then ""
    else "&timeInForce=" ++ o.timeInForce.toString ++
      "&price=" ++ toStringWithPrecision o.price (reg.precision o.instrument)) ++
  "&quantity=" ++ toStringWithPrecision o.quantity ++
  (if o.clientOrderId = "" then "" else "&newClientOrderId=" ++ o.clientOrderId) ++
  "&recvWindow=" ++ toString recvWindow ++
  "&timestamp=" ++ toString (now.tdiv 1000000)

/-- `EncryptWithHMAC` of `CRYPTO::TOOLS`; `hmac` is the one of OpenSSL, with `EVP_sha256`. -/
def encryptWithHMAC (hmac : String → String → Fin 32 → UInt8) (key data : String) : String :=
  String.ofList ((List.finRange 32).flatMap fun i =>
    [Nat.digitChar ((hmac key data i).toNat / 16), Nat.digitChar ((hmac key data i).toNat % 16)])

def sendOrderPath (hmac : String → String → Fin 32 → UInt8) (secretkey : String) : String :=
  "?" ++ sendOrderQuery reg recvWindow now o ++
    "&signature=" ++ encryptWithHMAC hmac secretkey (sendOrderQuery reg recvWindow now o)

def sendOrderTexts : Texts :=
  [("symbol", reg.symbol o.instrument.baseCCY ++ reg.symbol o.instrument.quoteCCY),
    ("side", if o.side = .buy then "BUY" else "SELL"),
    ("type", if o.isMarketOrder then "MARKET" else "LIMIT")] ++
  (if o.isMarketOrder then []
    else [("timeInForce", o.timeInForce.toString),
      ("price", toStringWithPrecision o.price (reg.precision o.instrument))]) ++
  [("quantity", toStringWithPrecision o.quantity)] ++
  (if o.clientOrderId = "" then [] else [("newClientOrderId", o.clientOrderId)]) ++
  [("recvWindow", toString recvWindow), ("timestamp", toString (now.tdiv 1000000))]

def readPath (path : String) : Texts :=
  (readFields '&' '=' path.toList.tail).map fun f => (String.ofList f.1, String.ofList f.2)

theorem toList_sendOrderPath (hmac : String → String → Fin 32 → UInt8) (secretkey : String) :
    (sendOrderPath reg recvWindow now o hmac secretkey).toList.tail =
      fieldsText '&' '=' (Texts.chars (sendOrderTexts reg recvWindow now o ++
        [("signature", encryptWithHMAC hmac secretkey (sendOrderQuery reg recvWindow now o))])) := by
  have query : (sendOrderQuery reg recvWindow now o).toList =
      fieldsText '&' '=' (sendOrderTexts reg recvWindow now o).chars := by
    unfold sendOrderQuery sendOrderTexts
    split_ifs
    all_goals simp [Texts.chars, fieldsText, fieldText]
  have nonempty : (sendOrderTexts reg recvWindow now o).chars ≠ [] := by
    simp [sendOrderTexts, Texts.chars]
  obtain ⟨first, later, same⟩ := List.exists_cons_of_ne_nil nonempty
  have split : Texts.chars (sendOrderTexts reg recvWindow now o ++
      [("signature", encryptWithHMAC hmac secretkey (sendOrderQuery reg recvWindow now o))]) =
      first :: (later ++ [("signature".toList,
        (encryptWithHMAC hmac secretkey (sendOrderQuery reg recvWindow now o)).toList)]) := by
    rw [Texts.chars, List.map_append, ← List.cons_append, ← same]
    rfl
  rw [split, sendOrderPath]
  simp only [String.toList_append, query, same, fieldsText, List.flatMap_append]
  simp [fieldText]

theorem distinct_names : ((sendOrderTexts reg recvWindow now o).map Prod.fst).Nodup := by
  unfold sendOrderTexts
  split_ifs
  all_goals simp

end SendOrder

def InName (c : Char) : Prop := c ≠ '=' ∧ c ≠ '&'
def InText (c : Char) : Prop := c ≠ '&'

instance (c : Char) : Decidable (InName c) := inferInstanceAs (Decidable (_ ∧ _))
instance (c : Char) : Decidable (InText c) := inferInstanceAs (Decidable (¬ _))

section ReadPath
variable {reg : Registry} {recvWindow now : ℤ} {o : OrderRequest} {base quote : String}
  {hmac : String → String → Fin 32 → UInt8} {secretkey : String}

theorem inText_encryptWithHMAC (key data : String) :
    ∀ c ∈ (encryptWithHMAC hmac key data).toList, InText c := by
  have hex : ∀ n < 16, InText (Nat.digitChar n) := by decide
  intro c member
  rw [encryptWithHMAC, String.toList_ofList] at member
  obtain ⟨i, -, digit⟩ := List.mem_flatMap.mp member
  have byte := (hmac key data i).toNat_lt
  rcases List.mem_cons.mp digit with rfl | low
  · exact hex _ (by omega)
  · rw [List.mem_singleton.mp low]
    exact hex _ (by omega)

theorem inText_digit (c : Char) (digit : c.isDigit = true) : InText c :=
  Numeral.digit_ne digit (by decide)

theorem inText_toString (n : ℤ) : ∀ c ∈ (toString n).toList, InText c := by
  rw [← Numeral.text_ofInt]
  exact numeral_chars inText_digit (by decide) (by decide) _

theorem read_chars {texts : Texts} (made : texts.Made InName InText) (nonempty : texts ≠ []) :
    (readFields '&' '=' (fieldsText '&' '=' texts.chars)).map
      (fun f => (String.ofList f.1, String.ofList f.2)) = texts := by
  have some : texts.chars ≠ [] := by
    simpa [Texts.chars] using nonempty
  have clean : ∀ f ∈ texts.chars, '=' ∉ f.1 ∧ '&' ∉ fieldText '=' f := by
    intro f member
    obtain ⟨text, listed, rfl⟩ := List.mem_map.mp member
    obtain ⟨name, inside⟩ := made text listed
    refine ⟨fun mark => (name _ mark).1 rfl, fun delimiter => ?_⟩
    rcases List.mem_append.mp delimiter with before | after
    · exact (name _ before).2 rfl
    · rcases List.mem_cons.mp after with mark | value
      · cases mark
      · exact inside _ value rfl
  rw [readFields_fieldsText some clean, Texts.chars, List.map_map]
  apply List.map_id''
  intro text
  simp only [Function.comp_apply, String.ofList_toList]

theorem made_texts (recvWindow now : ℤ) (listed : Listed reg o.instrument base quote)
    (cleanBase : ∀ c ∈ base.toList, InText c) (cleanQuote : ∀ c ∈ quote.toList, InText c)
    (cleanId : ∀ c ∈ o.clientOrderId.toList, InText c) :
    (sendOrderTexts reg recvWindow now o).Made InName InText := by
  have pair : ∀ c ∈ (reg.symbol o.instrument.baseCCY ++ reg.symbol o.instrument.quoteCCY).toList,
      InText c := by
    rw [String.toList_append, listed.symbols.1, listed.symbols.2]
    exact List.forall_mem_append.mpr ⟨cleanBase, cleanQuote⟩
  have side : ∀ c ∈ (if o.side = .buy then "BUY" else "SELL").toList, InText c := by
    split
    · exact chars_of_all rfl
    · exact chars_of_all rfl
  have type : ∀ c ∈ (if o.isMarketOrder then "MARKET" else "LIMIT").toList, InText c := by
    split
    · exact chars_of_all rfl
    · exact chars_of_all rfl
  have tif : ∀ c ∈ o.timeInForce.toString.toList, InText c := by
    cases o.timeInForce <;> exact chars_of_all rfl
  have first : Texts.Made InName InText [("symbol", _), ("side", _), ("type", _)] :=
    .cons (chars_of_all rfl) pair (.cons (chars_of_all rfl) side (.cons (chars_of_all rfl) type .nil))
  have limit : Texts.Made InName InText [("timeInForce", _), ("price", _)] :=
    .cons (chars_of_all rfl) tif (.cons (chars_of_all rfl)
      (printed_chars inText_digit (by decide) (by decide) o.price
        (reg.precision o.instrument)) .nil)
  have size : Texts.Made InName InText [("quantity", _)] :=
    .cons (chars_of_all rfl) (printed_chars inText_digit (by decide) (by decide) o.quantity 6) .nil
  have client : Texts.Made InName InText [("newClientOrderId", _)] := .cons (chars_of_all rfl) cleanId .nil
  have last : Texts.Made InName InText [("recvWindow", _), ("timestamp", _)] :=
    .cons (chars_of_all rfl) (inText_toString recvWindow)
      (.cons (chars_of_all rfl) (inText_toString (now.tdiv 1000000)) .nil)
  exact (((first.append (.ite .nil limit)).append size).append (.ite .nil client)).append last

theorem readPath_sendOrderPath (listed : Listed reg o.instrument base quote)
    (cleanBase : ∀ c ∈ base.toList, InText c) (cleanQuote : ∀ c ∈ quote.toList, InText c)
    (cleanId : ∀ c ∈ o.clientOrderId.toList, InText c) :
    readPath (sendOrderPath reg recvWindow now o hmac secretkey) =
      sendOrderTexts reg recvWindow now o ++
        [("signature", encryptWithHMAC hmac secretkey (sendOrderQuery reg recvWindow now o))] := by
  have signature : Texts.Made InName InText
      [("signature", encryptWithHMAC hmac secretkey (sendOrderQuery reg recvWindow now o))] :=
    .cons (chars_of_all rfl) (inText_encryptWithHMAC _ _) .nil
  have made := (made_texts recvWindow now listed cleanBase cleanQuote cleanId).append signature
  rw [readPath, toList_sendOrderPath, read_chars made (by simp)]

end ReadPath

def repeated : String → Option String
  | "symbol" => some "symbol"
  | "side" => some "side"
  | "type" => some "type"
  | "timeInForce" => some "timeInForce"
  | "price" => some "price"
  | "quantity" => some "origQty"
  | "newClientOrderId" => some "clientOrderId"
  | _ => none

structure Answers (asked : Texts) (answer : Members) : Prop where
  repeats : ∀ text ∈ asked, ∀ name ∈ repeated text.1, answer.lookup name = some (.scalar text.2)
  noError : answer.lookup "code" = none

section Reports
variable {reg : Registry} {recvWindow now : ℤ} {o : OrderRequest} {base quote : String}
  {c : Conversions} {jd : Members}

theorem text_of_lookup {name text : String} (found : jd.lookup name = some (.scalar text)) :
    c.text jd name = some text := by
  rw [Conversions.text, JSONDocument.getValue, found]
  rfl

theorem double_of_lookup (reads : ReadsNumerals fun text => c.toDouble (.scalar text))
    {name : String} {value : ℚ} {n : ℤ}
    (found : jd.lookup name = some (.scalar (toStringWithPrecision value n))) :
    c.double jd name = some (kept value n) := by
  rw [Conversions.double, JSONDocument.getValue, found]
  exact reads.printed value n

structure Speaks (c : Conversions) (jd : Members) (instrument : CurrencyPair) (orderQty : ℚ)
    (report : ExecutionReportData) : Prop where
  instrument : report.instrument = instrument
  orderQty : report.orderQty = orderQty
  clOrdID : c.text jd "clientOrderId" = some report.clOrdID
  ordType : ∃ type, c.text jd "type" = some type ∧
    report.ordType = if type = "MARKET" then .market else .limit
  side : ∃ side, c.text jd "side" = some side ∧
    report.side = if side = "SELL" then .sell else if side = "BUY" then .buy else .invalid
  tif : ∃ tif, c.text jd "timeInForce" = some tif ∧ report.tif = TimeInForce.ofString tif
  orderPx : c.double jd "price" = some report.orderPx

variable {instrument : CurrencyPair} {orderQty executedQty : ℚ} {status : Char × Char}
  {report : ExecutionReportData} {reports : List ExecutionReportData} {fills : List Json}

theorem speaks_of_prepared
    (prepared : prepareExecReport c jd instrument orderQty status = some report) :
    Speaks c jd instrument orderQty report := by
  simp only [prepareExecReport, Option.bind_eq_bind, Option.bind_eq_some_iff] at prepared
  obtain ⟨_, -, clOrdID, client, type, ofType, side, ofSide, tif, ofTif, price, ofPrice, made⟩ :=
    prepared
  obtain rfl := Option.some.inj made
  exact {
    instrument := rfl
    orderQty := rfl
    clOrdID := client
    ordType := ⟨type, ofType, rfl⟩
    side := ⟨side, ofSide, rfl⟩
    tif := ⟨tif, ofTif, rfl⟩
    orderPx := ofPrice }

theorem speaks_of_fills
    (translated : translateFills c jd instrument orderQty status executedQty fills = some reports) :
    reports.length = fills.length ∧
      ∀ report ∈ reports, Speaks c jd instrument orderQty report := by
  induction fills generalizing executedQty reports with
  | nil =>
      obtain rfl : [] = reports := Option.some.inj translated
      exact ⟨rfl, fun _ member => absurd member List.not_mem_nil⟩
  | cons fill fills ih =>
      simp only [translateFills, Option.bind_eq_bind, Option.bind_eq_some_iff] at translated
      obtain ⟨single, prepared, lastPx, -, lastQty, -, rest, later, made⟩ := translated
      obtain ⟨length, speaks⟩ := ih later
      have first := speaks_of_prepared prepared
      split at made
      · obtain rfl := Option.some.inj made
        exact ⟨congrArg (· + 1) length, List.forall_mem_cons.mpr ⟨{ first with }, speaks⟩⟩
      · obtain rfl := Option.some.inj made
        exact ⟨congrArg (· + 1) length, List.forall_mem_cons.mpr ⟨{ first with }, speaks⟩⟩

theorem speaks_of_single
    (translated : generateSingleExecution c jd instrument orderQty status = some reports) :
    reports.length = 1 ∧ ∀ report ∈ reports, Speaks c jd instrument orderQty report := by
  simp only [generateSingleExecution, Option.bind_eq_bind, Option.bind_eq_some_iff] at translated
  obtain ⟨single, prepared, cumQty, -, made⟩ := translated
  have first := speaks_of_prepared prepared
  obtain rfl := Option.some.inj made
  refine ⟨rfl, List.forall_mem_cons.mpr ⟨{ first with }, ?_⟩⟩
  exact fun _ member => absurd member List.not_mem_nil

def reportCount (jd : Members) : ℕ := max 1 ((jd.getArray "fills").getD []).length

theorem speaks_of_translated {symbol : String} (noError : jd.lookup "code" = none)
    (ofSymbol : c.text jd "symbol" = some symbol) (ofQty : c.double jd "origQty" = some orderQty)
    (translated : ConnectionORD.translateOrder reg c jd = some reports) :
    reports.length = reportCount jd ∧
      ∀ report ∈ reports, Speaks c jd (reg.parse symbol.toList) orderQty report := by
  have code : c.text jd "code" = some "" := by
    rw [Conversions.text, JSONDocument.getValue, noError]
  simp only [translateOrder, Core.translateOrder, Option.bind_eq_bind, code, Option.bind_some,
    ne_eq, not_true_eq_false, if_false, ofSymbol, ofQty, Option.bind_eq_some_iff] at translated
  obtain ⟨status, -, translated⟩ := translated
  unfold reportCount
  split at translated
  next fill fills listed =>
    obtain ⟨length, speaks⟩ := speaks_of_fills translated
    refine ⟨?_, speaks⟩
    simp [listed, length]
  next unlisted =>
    obtain ⟨length, speaks⟩ := speaks_of_single translated
    refine ⟨?_, speaks⟩
    rw [length]
    cases listed : jd.getArray "fills" with
    | none => rfl
    | some fills =>
        cases fills with
        | nil => rfl
        | cons fill fills => exact absurd listed (unlisted fill fills)

/-- What is sent is read back, and is reported in all the reports of an answer that repeats it, up to
the decimals that are printed. -/
theorem sendOrder_reported {hmac : String → String → Fin 32 → UInt8} {secretkey : String}
    (listed : Listed reg o.instrument base quote)
    (cleanBase : ∀ c ∈ base.toList, InText c) (cleanQuote : ∀ c ∈ quote.toList, InText c)
    (cleanId : ∀ c ∈ o.clientOrderId.toList, InText c)
    (reads : ReadsNumerals fun text => c.toDouble (.scalar text)) :
    readPath (sendOrderPath reg recvWindow now o hmac secretkey) =
      sendOrderTexts reg recvWindow now o ++
        [("signature", encryptWithHMAC hmac secretkey (sendOrderQuery reg recvWindow now o))] ∧
    ∀ jd reports, Answers (readPath (sendOrderPath reg recvWindow now o hmac secretkey)) jd →
      ConnectionORD.translateOrder reg c jd = some reports →
      reports.length = reportCount jd ∧ ∀ report ∈ reports,
        o.ReadsBack (reg.precision o.instrument) report.order ∧
        (report.ordType = .market ↔ o.isMarketOrder = true) ∧
        (o.isMarketOrder = false → report.tif = o.timeInForce) := by
  have parameters : readPath (sendOrderPath reg recvWindow now o hmac secretkey) = _ :=
    readPath_sendOrderPath listed cleanBase cleanQuote cleanId
  refine ⟨parameters, fun jd reports answers translated => ?_⟩
  rw [parameters] at answers
  have asked (name name' text : String) (member : (name, text) ∈ sendOrderTexts reg recvWindow now o)
      (again : repeated name = some name') : jd.lookup name' = some (.scalar text) :=
    answers.repeats (name, text) (List.mem_append_left _ member) name' again
  have symbol : c.text jd "symbol" = _ := text_of_lookup (asked "symbol" "symbol"
    (reg.symbol o.instrument.baseCCY ++ reg.symbol o.instrument.quoteCCY)
    (by simp [sendOrderTexts]) rfl)
  have side : c.text jd "side" = _ := text_of_lookup (asked "side" "side"
    (if o.side = .buy then "BUY" else "SELL") (by simp [sendOrderTexts]) rfl)
  have type : c.text jd "type" = _ := text_of_lookup (asked "type" "type"
    (if o.isMarketOrder then "MARKET" else "LIMIT") (by simp [sendOrderTexts]) rfl)
  have quantity := double_of_lookup reads (asked "quantity" "origQty"
    (toStringWithPrecision o.quantity) (by simp [sendOrderTexts]) rfl)
  have pair : reg.parse (reg.symbol o.instrument.baseCCY ++
      reg.symbol o.instrument.quoteCCY).toList = o.instrument := by
    rw [String.toList_append, listed.symbols.1, listed.symbols.2]
    exact listed.readsBack.concatenation
  obtain ⟨length, speaks⟩ := speaks_of_translated answers.noError symbol quantity translated
  refine ⟨length, fun report member => ?_⟩
  have spoken := speaks report member
  obtain ⟨type', ofType, ordType⟩ := spoken.ordType
  obtain ⟨side', ofSide, reportSide⟩ := spoken.side
  obtain rfl := Option.some.inj (type.symm.trans ofType)
  obtain rfl := Option.some.inj (side.symm.trans ofSide)
  refine ⟨?_, ?_, ?_⟩
  · exact {
      instrument := spoken.instrument.trans pair
      side := by
        rw [ExecutionReportData.order, reportSide]
        split <;> rfl
      quantity := by
        rw [ExecutionReportData.order, spoken.orderQty]
        exact rounded_kept o.quantity 6
      price := by
        intro limit
        have price := double_of_lookup reads (asked "price" "price"
          (toStringWithPrecision o.price (reg.precision o.instrument))
          (by simp [sendOrderTexts, limit]) rfl)
        rw [ExecutionReportData.order, Option.some.inj (spoken.orderPx.symm.trans price)]
        exact rounded_kept o.price _
      clientOrderId := by
        intro given
        have client := text_of_lookup (c := c) (asked "newClientOrderId" "clientOrderId"
          o.clientOrderId (by simp [sendOrderTexts, given]) rfl)
        exact Option.some.inj (spoken.clOrdID.symm.trans client) }
  · rw [ordType]
    cases o.isMarketOrder <;> simp
  · intro limit
    have tif := text_of_lookup (c := c) (asked "timeInForce" "timeInForce" o.timeInForce.toString
      (by simp [sendOrderTexts, limit]) rfl)
    obtain ⟨tif', ofTif, reportTif⟩ := spoken.tif
    obtain rfl := Option.some.inj (tif.symm.trans ofTif)
    rw [reportTif, TimeInForce.ofString_toString]

end Reports

def euroAnswer : Members :=
  [("symbol", .scalar "EURUSD"), ("orderId", .scalar "7"), ("clientOrderId", .scalar "grid-1"),
    ("price", .scalar "1.23457"), ("origQty", .scalar "0.666667"), ("status", .scalar "FILLED"),
    ("timeInForce", .scalar "GTC"), ("type", .scalar "LIMIT"), ("side", .scalar "BUY"),
    ("fills", .array [
      .object [("price", .scalar "1.2345"), ("qty", .scalar "0.5")],
      .object [("price", .scalar "1.2344"), ("qty", .scalar "0.166667")]])]

def euroReports : List ExecutionReportData :=
  (ConnectionORD.translateOrder Registry.majors libraryConversions euroAnswer).getD []

def euroDigest : List UInt8 :=
  [107, 58, 107, 65, 241, 51, 137, 38, 143, 170, 184, 227, 219, 4, 175, 243, 250, 250, 169,
    205, 191, 80, 43, 96, 162, 248, 240, 156, 105, 188, 62, 244]

def euroPath : String :=
  sendOrderPath Registry.majors 5000 1700000000000000000 euroOrder
    (fun _ _ i => euroDigest.getD i 0) "key"

theorem sendOrder_reported_euro : euroReports.length = 2 ∧ ∀ report ∈ euroReports,
    euroOrder.ReadsBack (Registry.majors.precision euroOrder.instrument) report.order := by
  have accepted : (ConnectionORD.translateOrder Registry.majors libraryConversions
      euroAnswer).isSome = true := by
    decide +kernel
  have translated : ConnectionORD.translateOrder Registry.majors libraryConversions euroAnswer =
      some euroReports := by
    obtain ⟨reports, found⟩ := Option.isSome_iff_exists.mp accepted
    rw [euroReports, found, Option.getD_some]
  have parameters : readPath euroPath = [("symbol", "EURUSD"), ("side", "BUY"), ("type", "LIMIT"),
      ("timeInForce", "GTC"), ("price", "1.23457"), ("quantity", "0.666667"),
      ("newClientOrderId", "grid-1"), ("recvWindow", "5000"), ("timestamp", "1700000000000"),
      ("signature", "6b3a6b41f13389268faab8e3db04aff3fafaa9cdbf502b60a2f8f09c69bc3ef4")] := by
    decide +kernel
  have answers : Answers (readPath euroPath) euroAnswer := by
    rw [parameters]
    refine ⟨?_, rfl⟩
    intro text member name again
    simp only [List.mem_cons, List.not_mem_nil, or_false] at member
    rcases member with rfl | rfl | rfl | rfl | rfl | rfl | rfl | rfl | rfl | rfl
    all_goals
      cases again
      try rfl
  have plainId : ∀ c ∈ euroOrder.clientOrderId.toList, InText c := chars_of_all rfl
  obtain ⟨-, reported⟩ := sendOrder_reported (c := libraryConversions) majors_listed
    (chars_of_all rfl) (chars_of_all rfl) plainId stod_readsNumerals
  obtain ⟨length, back⟩ := reported euroAnswer euroReports answers translated
  exact ⟨length, fun report member => (back report member).1⟩

end SpotGridBot.Binance.ConnectionORD
