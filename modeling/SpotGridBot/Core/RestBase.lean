import SpotGridBot.Lib.JsonLines
import SpotGridBot.Core.JSONMessage
import SpotGridBot.Core.OrderManager

namespace SpotGridBot.Core.RestBase
open JsonText

structure HTTPResponse where
  status : ℕ
  reason : String
  body : String

def received (body : String) : String := String.ofList (body.toList.splitOn '\n').flatten

/-- `UTILS::GetMessage` of a `std::runtime_error`, whose type has this name. -/
def runtimeErrorMessage (what : String) : String := what ++ " (St13runtime_error)"

def notExpectedStatus (uri reason msg : String) : String :=
  "Request '" ++ uri ++ "' has not expected status " ++ reason ++
    ", reason: HTTP_UNAUTHORIZED, response: '" ++ msg ++ "'"

def sendWebRequest (uri : String) (response : HTTPResponse) : Except String String :=
  let msg := received response.body
  if response.status = 401 then
    .error (runtimeErrorMessage (notExpectedStatus uri response.reason msg))
  else .ok msg

/-- `exchange` is the response, or the message of what is thrown before there is one. -/
def executeWebRequest (uri : String) (exchange : Except String HTTPResponse) : String :=
  match exchange >>= sendWebRequest uri with
  | .ok msg => msg
  | .error message => createJSONMessageWithCode message

section Reply
variable (parse : String → Option Members) (print : Json → String)

/-- What `PlaceLimitOrder` makes of the text that `SendOrder` returns; `parse` is the constructor of
`JSONDocument`. -/
def readReply (responseStr : String) : Reply :=
  .answer do
    let response ← parse responseStr
    let success ← JSONDocument.getValue (Members.convert print) "" response "success"
    some {
      success
      orderId := do
        let text ← JSONDocument.getValue (Members.convert print) "" response "success_response"
        let sr ← parse text
        JSONDocument.getValue (Members.convert print) "" sr "order_id" }

end Reply

section Requests
variable (numberText : List Char → String)

/-- A parser against standard JSON. -/
structure ReadsJson (parse : String → Option Members) : Prop where
  accepts : ∀ text document, JSONDocument.parse numberText text = some document →
    parse text = some document
  refuses : ∀ text, JSONDocument.parse numberText text = none → parse text = none

variable {parse : String → Option Members}

/-- The line breaks do not matter to a document. -/
theorem executeWebRequest_reads (standard : ReadsJson numberText parse) (uri : String)
    {response : HTTPResponse} {document : Members} (authorized : response.status ≠ 401)
    (isJson : JSONDocument.parse numberText response.body = some document) :
    parse (executeWebRequest uri (.ok response)) = some document := by
  apply standard.accepts
  obtain ⟨value, accepted, extracted⟩ := Option.bind_eq_some_iff.mp isJson
  have sent : executeWebRequest uri (.ok response) = received response.body := by
    show (match sendWebRequest uri response with
      | .ok msg => msg
      | .error message => createJSONMessageWithCode message) = _
    rw [sendWebRequest, if_neg authorized]
  rw [sent, JSONDocument.parse, received, String.toList_ofList, read_lines accepted,
    Option.bind_some]
  exact extracted

theorem parse_quoted {message : String} {before rest : List Char} {c : Char}
    (text : message.toList = before ++ '"' :: c :: rest) (plain : ∀ d ∈ before, Plain d)
    (inner : Scanner.between c = none) :
    JSONDocument.parse numberText (createJSONMessageWithCode message) = none := by
  have closes : Scanner.step (.string before) '"' = some (.outside, [.string before]) := by
    rfl
  have word : Scanner.step .outside c = some (.word [c], []) := by
    rw [Scanner.step, inner, Option.getD_none]
  rw [parse_message, text, List.append_assoc, Scanner.scan_silent (Scanner.advance_plain plain),
    List.nil_append, List.cons_append, List.cons_append, Scanner.scan_cons closes,
    Scanner.scan_cons word]
  cases scanned : Scanner.scan (.word [c]) (rest ++ ['"', '\x7d']) with
  | none => rfl
  | some tokens =>
      obtain ⟨chars, later, rfl⟩ := Scanner.scan_word_starts scanned
      rfl

theorem parse_failed {message : String} (plain : ∀ d ∈ message.toList, Plain d) :
    JSONDocument.parse numberText (createJSONMessageWithCode message) =
      some [("msg", .scalar message), ("code", .scalar (numberText ['1']))] := by
  have closes : Scanner.scan (.string message.toList) ['"', '\x7d'] =
      some [.string message.toList, .closeObject] := by
    rfl
  rw [parse_message, Scanner.scan_silent (Scanner.advance_plain plain), List.nil_append, closes,
    Option.bind_some]
  have text : String.ofList message.toList = message := String.ofList_toList
  simp only [Builder.build, Builder.step, Builder.put, Builder.begin, Option.bind_some, jsonReader,
    text]
  rfl

def QuotesWord (text : String) : Prop :=
  ∃ before c rest, text.toList = before ++ '"' :: c :: rest ∧ (∀ d ∈ before, Plain d) ∧
    Scanner.between c = none

theorem parse_unauthorized {uri reason msg : String} (plainUri : ∀ d ∈ uri.toList, Plain d)
    (plainReason : ∀ d ∈ reason.toList, Plain d) (quotes : QuotesWord msg) :
    JSONDocument.parse numberText (createJSONMessageWithCode
      (runtimeErrorMessage (notExpectedStatus uri reason msg))) = none := by
  obtain ⟨before, c, rest, text, plain, inner⟩ := quotes
  have asked : ∀ d ∈ "Request '".toList, Plain d := plain_of_all rfl
  have status : ∀ d ∈ "' has not expected status ".toList, Plain d := plain_of_all rfl
  have answered : ∀ d ∈ ", reason: HTTP_UNAUTHORIZED, response: '".toList, Plain d :=
    plain_of_all rfl
  have message : (runtimeErrorMessage (notExpectedStatus uri reason msg)).toList =
      ("Request '".toList ++ (uri.toList ++ ("' has not expected status ".toList ++
        (reason.toList ++ (", reason: HTTP_UNAUTHORIZED, response: '".toList ++ before))))) ++
      '"' :: c :: (rest ++ ("'".toList ++ " (St13runtime_error)".toList)) := by
    rw [runtimeErrorMessage, notExpectedStatus]
    simp only [String.toList_append, List.append_assoc, text, List.cons_append]
  refine parse_quoted numberText message ?_ inner
  simp only [List.forall_mem_append]
  exact ⟨asked, plainUri, status, plainReason, answered, plain⟩

/-- Where there is no response, `PlaceLimitOrder` returns no order. Where the response is that the
request is not authorized, it throws, for the error message quotes the document. -/
theorem placeLimitOrder_failed {α : Type} [Zero α] (standard : ReadsJson numberText parse)
    (print : Json → String) (m : OrderManager α) (side : Utils.Side) (price quantity : α)
    {uri : String} (plainUri : ∀ d ∈ uri.toList, Plain d) :
    (∀ message, (∀ d ∈ message.toList, Plain d) →
      m.placeLimitOrder side price quantity
        (readReply parse print (executeWebRequest uri (.error message))) = some ("", m)) ∧
    ∀ response : HTTPResponse, response.status = 401 →
      (∀ d ∈ response.reason.toList, Plain d) → QuotesWord (received response.body) →
      m.placeLimitOrder side price quantity
        (readReply parse print (executeWebRequest uri (.ok response))) = none := by
  constructor
  · intro message plain
    have sent : executeWebRequest uri (.error message) = createJSONMessageWithCode message := rfl
    rw [sent, readReply, standard.accepts _ _ (parse_failed numberText plain)]
    rfl
  · intro response unauthorized plainReason quotes
    have sent : executeWebRequest uri (.ok response) = createJSONMessageWithCode
        (runtimeErrorMessage (notExpectedStatus uri response.reason (received response.body))) := by
      show (match sendWebRequest uri response with
        | .ok msg => msg
        | .error message => createJSONMessageWithCode message) = _
      rw [sendWebRequest, if_pos unauthorized]
    rw [sent, readReply,
      standard.refuses _ (parse_unauthorized numberText plainUri plainReason quotes)]
    rfl

end Requests

theorem readsJson_parse (numberText : List Char → String) :
    ReadsJson numberText (JSONDocument.parse numberText) :=
  ⟨fun _ _ reads => reads, fun _ fails => fails⟩

def brokerage : String := "/api/v3/brokerage/orders"

theorem executeWebRequest_reads_twoLines :
    JSONDocument.parse String.ofList (executeWebRequest brokerage
        (.ok ⟨200, "OK", "\x7b\"success\":\n true\x7d"⟩)) = some [("success", .scalar "true")] :=
  executeWebRequest_reads String.ofList (readsJson_parse String.ofList) brokerage (by decide)
    (by rfl)

/-- A text that is no document may become one: without the break the two numbers are one. -/
example : JsonText.read (jsonReader String.ofList) "[1\n2]".toList = none ∧
    received "[1\n2]" = "[12]" := by
  exact ⟨by rfl, by rfl⟩

theorem placeLimitOrder_failed_unauthorized :
    OrderManager.placeLimitOrder ⟨fun _ => none, fun _ => (0 : ℚ)⟩ .buy 95000 1
        (readReply (JSONDocument.parse String.ofList) (fun _ => "") (executeWebRequest brokerage
          (.error "Connection refused (N4Poco3Net26ConnectionRefusedExceptionE)"))) =
          some ("", ⟨fun _ => none, fun _ => 0⟩) ∧
      OrderManager.placeLimitOrder ⟨fun _ => none, fun _ => (0 : ℚ)⟩ .buy 95000 1
        (readReply (JSONDocument.parse String.ofList) (fun _ => "") (executeWebRequest brokerage
          (.ok ⟨401, "Unauthorized", "\x7b\n  \"error\": \"unauthorized\"\n\x7d\n"⟩))) = none := by
  have plainUri : ∀ d ∈ brokerage.toList, Plain d := plain_of_all rfl
  have failed := placeLimitOrder_failed String.ofList (readsJson_parse String.ofList) (fun _ => "")
    ⟨fun _ => none, fun _ => (0 : ℚ)⟩ .buy 95000 1 plainUri
  refine ⟨failed.1 _ (plain_of_all rfl), failed.2 _ rfl (plain_of_all rfl) ?_⟩
  exact ⟨"\x7b  ".toList, 'e', "rror\": \"unauthorized\"\x7d".toList, by decide +kernel,
    plain_of_all rfl, rfl⟩

end SpotGridBot.Core.RestBase
