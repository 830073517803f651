import SpotGridBot.OKX.ConnectionORD
import Mathlib.Data.List.Chain
import Mathlib.Tactic.Linarith
import Mathlib.Tactic.Ring

namespace SpotGridBot.Core
open Utils

def runningSums : ℚ → List ℚ → List ℚ
  | _, [] => []
  | total, qty :: rest => (total + qty) :: runningSums (total + qty) rest

def ExecutionReportData.status (report : ExecutionReportData) : Char × Char :=
  (report.ordStatus, report.execType)

structure BalancedReports (own : Option (Char × Char)) (fills : List ℚ)
    (reports : List ExecutionReportData) : Prop where
  balance : ∀ report ∈ reports, report.cumQty + report.leavesQty = report.orderQty
  sums : reports.map (·.cumQty) = if fills = [] then [0] else runningSums 0 fills
  increasing : (reports.map (·.cumQty)).IsChain (· ≤ ·)
  partialFills : ∀ report ∈ reports.dropLast,
    report.status = (ordStatusPartiallyFilled, execTypePartialFill)
  last : reports.getLast?.map (·.status) = own

def ExactSums (nearest : ℚ → ℚ) (orderQty : ℚ) : ℚ → List ℚ → Prop
  | _, [] => True
  | total, qty :: rest =>
      nearest (total + qty) = total + qty ∧
        nearest (orderQty - (total + qty)) = orderQty - (total + qty) ∧
          ExactSums nearest orderQty (total + qty) rest

instance decidableExactSums (nearest : ℚ → ℚ) (orderQty : ℚ) :
    (total : ℚ) → (qtys : List ℚ) → Decidable (ExactSums nearest orderQty total qtys)
  | _, [] => .isTrue trivial
  | total, qty :: rest =>
      have := decidableExactSums nearest orderQty (total + qty) rest
      inferInstanceAs (Decidable (_ ∧ _ ∧ ExactSums nearest orderQty (total + qty) rest))

theorem runningSums_isChain (total : ℚ) (qtys : List ℚ) :
    (runningSums total qtys).IsChain (· ≤ ·) ↔ ∀ qty ∈ qtys.tail, 0 ≤ qty := by
  induction qtys generalizing total with
  | nil => simp [runningSums]
  | cons qty rest ih =>
      cases rest with
      | nil => simp [runningSums]
      | cons next rest =>
          have later := ih (total + qty)
          rw [runningSums, runningSums, List.isChain_cons_cons, ← runningSums, later]
          simp

section Responses
variable (reg : Registry) (c : Conversions) (jd : Members)

def ownStatus : Option (Char × Char) := (c.text jd "status").map translateOrderStatus

def fillQtys : List ℚ := ((jd.getArray "fills").getD []).filterMap (c.member "qty")

def Accounted : Prop :=
  (∀ qty ∈ (fillQtys c jd).tail, 0 ≤ qty) ∧
  (∀ orderQty ∈ c.double jd "origQty", ExactSums c.nearest orderQty 0 (fillQtys c jd)) ∧
  (fillQtys c jd = [] → c.double jd "cummulativeQuoteQty" = some 0)

variable {reg c jd}

theorem prepareExecReport_spec {instrument : CurrencyPair} {orderQty : ℚ} {status : Char × Char}
    {report : ExecutionReportData}
    (prepared : prepareExecReport c jd instrument orderQty status = some report) :
    report.orderQty = orderQty ∧ report.status = status := by
  simp only [prepareExecReport, Option.bind_eq_bind, Option.bind_eq_some_iff] at prepared
  obtain ⟨_, -, _, -, _, -, _, -, _, -, _, -, made⟩ := prepared
  rw [← Option.some.inj made]
  exact ⟨rfl, rfl⟩

theorem translateFills_cons {instrument : CurrencyPair} {orderQty executedQty : ℚ}
    {status : Char × Char} {fill : Json} {fills : List Json} {reports : List ExecutionReportData}
    (translated : translateFills c jd instrument orderQty status executedQty (fill :: fills) =
      some reports) :
    ∃ qty report rest, c.member "qty" fill = some qty ∧ reports = report :: rest ∧
      translateFills c jd instrument orderQty status (c.nearest (executedQty + qty)) fills =
        some rest ∧
      report.orderQty = orderQty ∧ report.cumQty = c.nearest (executedQty + qty) ∧
      report.leavesQty = c.nearest (orderQty - c.nearest (executedQty + qty)) ∧
      report.status =
        if fills = [] then status else (ordStatusPartiallyFilled, execTypePartialFill) := by
  simp only [translateFills, Option.bind_eq_bind, Option.bind_eq_some_iff] at translated
  obtain ⟨prepared, prepares, price, -, qty, reads, rest, later, made⟩ := translated
  obtain ⟨orderQty', status'⟩ := prepareExecReport_spec prepares
  cases fills with
  | nil =>
      rw [if_pos List.isEmpty_nil] at made
      exact ⟨qty, _, rest, reads, (Option.some.inj made).symm, later, orderQty', rfl, rfl, status'⟩
  | cons next fills =>
      rw [if_neg (by simp)] at made
      exact ⟨qty, _, rest, reads, (Option.some.inj made).symm, later, orderQty', rfl, rfl, rfl⟩

theorem translateFills_status {instrument : CurrencyPair} {orderQty executedQty : ℚ}
    {status : Char × Char} {fills : List Json} {reports : List ExecutionReportData}
    (translated : translateFills c jd instrument orderQty status executedQty fills =
      some reports) :
    (∀ report ∈ reports.dropLast,
      report.status = (ordStatusPartiallyFilled, execTypePartialFill)) ∧
    reports.getLast?.map (·.status) = if fills = [] then none else some status := by
  induction fills generalizing executedQty reports with
  | nil =>
      obtain rfl : [] = reports := Option.some.inj translated
      simp
  | cons fill fills ih =>
      obtain ⟨qty, report, rest, -, rfl, later, -, -, -, status'⟩ := translateFills_cons translated
      obtain ⟨partialFills, last⟩ := ih later
      cases fills with
      | nil =>
          obtain rfl : [] = rest := Option.some.inj later
          simpa using status'
      | cons next fills =>
          obtain ⟨_, _, rest', _, rfl, _⟩ := translateFills_cons later
          constructor
          · rw [List.dropLast_cons_cons]
            simpa [status'] using partialFills
          · rw [List.getLast?_cons_cons, last]
            simp

theorem translateFills_sums_iff {instrument : CurrencyPair} {orderQty executedQty : ℚ}
    {status : Char × Char} {fills : List Json} {reports : List ExecutionReportData}
    (translated : translateFills c jd instrument orderQty status executedQty fills =
      some reports) :
    (∀ report ∈ reports, report.cumQty + report.leavesQty = report.orderQty) ∧
        reports.map (·.cumQty) = runningSums executedQty (fills.filterMap (c.member "qty")) ↔
      ExactSums c.nearest orderQty executedQty (fills.filterMap (c.member "qty")) := by
  induction fills generalizing executedQty reports with
  | nil =>
      obtain rfl : [] = reports := Option.some.inj translated
      simp [runningSums, ExactSums]
  | cons fill fills ih =>
      obtain ⟨qty, report, rest, reads, rfl, later, orderQty', cumQty, leavesQty, -⟩ :=
        translateFills_cons translated
      rw [List.filterMap_cons_some reads, ExactSums, runningSums, List.map_cons, List.cons.injEq,
        List.forall_mem_cons, cumQty, leavesQty, orderQty']
      constructor
      · rintro ⟨⟨own, balance⟩, sum, sums⟩
        rw [sum] at own later
        exact ⟨sum, by linarith, (ih later).mp ⟨balance, sums⟩⟩
      · rintro ⟨sum, difference, exact'⟩
        rw [sum] at later
        obtain ⟨balance, sums⟩ := (ih later).mpr exact'
        exact ⟨⟨by rw [sum, difference]; ring, balance⟩, sum, sums⟩

theorem generateSingleExecution_spec {instrument : CurrencyPair} {orderQty : ℚ}
    {status : Char × Char} {reports : List ExecutionReportData}
    (translated : generateSingleExecution c jd instrument orderQty status = some reports) :
    ∃ report paid, reports = [report] ∧ c.double jd "cummulativeQuoteQty" = some paid ∧
      report.orderQty = orderQty ∧ report.cumQty = paid ∧ report.leavesQty = orderQty ∧
      report.status = status := by
  simp only [generateSingleExecution, Option.bind_eq_bind, Option.bind_eq_some_iff] at translated
  obtain ⟨prepared, prepares, paid, reads, made⟩ := translated
  obtain ⟨orderQty', status'⟩ := prepareExecReport_spec prepares
  exact ⟨_, paid, (Option.some.inj made).symm, reads, orderQty', rfl, rfl, status'⟩

theorem fills_balanced_iff {instrument : CurrencyPair} {orderQty : ℚ} {status : Char × Char}
    {fill : Json} {fills : List Json} {reports : List ExecutionReportData}
    (translated : translateFills c jd instrument orderQty status 0 (fill :: fills) =
      some reports) :
    BalancedReports (some status) ((fill :: fills).filterMap (c.member "qty")) reports ↔
      (∀ qty ∈ ((fill :: fills).filterMap (c.member "qty")).tail, 0 ≤ qty) ∧
        ExactSums c.nearest orderQty 0 ((fill :: fills).filterMap (c.member "qty")) := by
  obtain ⟨partialFills, last⟩ := translateFills_status translated
  have adds := translateFills_sums_iff translated
  obtain ⟨qty, _, _, reads, _⟩ := translateFills_cons translated
  have some : (fill :: fills).filterMap (c.member "qty") ≠ [] := by
    rw [List.filterMap_cons_some reads]
    simp
  constructor
  · intro balanced
    have sums := balanced.sums
    rw [if_neg some] at sums
    have increasing := balanced.increasing
    rw [sums] at increasing
    exact ⟨(runningSums_isChain 0 _).mp increasing, adds.mp ⟨balanced.balance, sums⟩⟩
  · rintro ⟨nonneg, exact'⟩
    obtain ⟨balance, sums⟩ := adds.mpr exact'
    refine ⟨balance, by rw [sums, if_neg some], ?_, partialFills, by rw [last]; simp⟩
    rw [sums]
    exact (runningSums_isChain 0 _).mpr nonneg

theorem single_balanced_iff {instrument : CurrencyPair} {orderQty : ℚ} {status : Char × Char}
    {reports : List ExecutionReportData}
    (translated : generateSingleExecution c jd instrument orderQty status = some reports) :
    BalancedReports (some status) [] reports ↔
      c.double jd "cummulativeQuoteQty" = some 0 := by
  obtain ⟨report, paid, rfl, reads, orderQty', cumQty, leavesQty, status'⟩ :=
    generateSingleExecution_spec translated
  rw [reads, Option.some_inj]
  constructor
  · intro balanced
    have sums := balanced.sums
    simp only [List.map_cons, List.map_nil, if_true, List.cons.injEq, and_true] at sums
    rw [← cumQty, sums]
  · rintro rfl
    refine ⟨?_, by simp [cumQty], by simp, by simp, by simp [status']⟩
    intro report' member
    rw [List.mem_singleton.mp member, cumQty, leavesQty, orderQty', zero_add]

theorem translateOrder_balanced_iff {reports : List ExecutionReportData}
    (accepted : c.text jd "code" = some "")
    (translated : translateOrder reg c jd = some reports) :
    BalancedReports (ownStatus c jd) (fillQtys c jd) reports ↔ Accounted c jd := by
  simp only [translateOrder, Option.bind_eq_bind, accepted, Option.bind_some, ne_eq,
    not_true_eq_false, if_false, Option.bind_eq_some_iff] at translated
  obtain ⟨symbol, -, orderQty, ordered, status, named, translated⟩ := translated
  have own : ownStatus c jd = some (translateOrderStatus status) := by
    rw [ownStatus, named]
    rfl
  rw [own]
  unfold Accounted fillQtys
  split at translated
  next fill fills listed =>
    obtain ⟨qty, _, _, reads, _⟩ := translateFills_cons translated
    have some : (fill :: fills).filterMap (c.member "qty") ≠ [] := by
      rw [List.filterMap_cons_some reads]
      simp
    rw [listed, Option.getD_some, fills_balanced_iff translated]
    simp [some, ordered]
  next none =>
    have nothing : (jd.getArray "fills").getD [] = [] := by
      cases listed : jd.getArray "fills" with
      | none => rfl
      | some fills =>
          cases fills with
          | nil => rfl
          | cons fill fills => exact absurd listed (none fill fills)
    rw [nothing, List.filterMap_nil, single_balanced_iff translated]
    simp [ExactSums]

end Responses

end SpotGridBot.Core

namespace SpotGridBot.OKX.ConnectionORD
open Utils SpotGridBot.Core

section Responses
variable (reg : Registry) (c : Conversions) (toLong : Json → Option ℤ)
  (formatTimestamp : ℤ → String) (jd : Members)

def reported : Option Members := ((jd.getArray "data").bind List.head?).bind c.struct

def ownStatus : Option (Char × Char) :=
  ((reported c jd).bind fun elem => elem.getValue c.print "state").map translateState

def fillSizes : List ℚ := ((reported c jd).map fun elem => getVal c elem "fillSz").toList

def FilledAtOnce : Prop :=
  ∀ elem, reported c jd = some elem →
    getVal c elem "fillSz" = getVal c elem "sz"

def NoError : Prop :=
  (getOrderActionResult c toLong jd).map (·.state.code) = some 0 ∧ (reported c jd).isSome = true

variable {reg c toLong formatTimestamp jd}

theorem translateElement_spec {elem : Members} {report : ExecutionReportData}
    (translated : translateElement reg c toLong formatTimestamp elem = some report) :
    (elem.getValue c.print "state").map translateState = some report.status ∧
    report.orderQty = getVal c elem "sz" ∧
    report.cumQty = getVal c elem "fillSz" ∧ report.leavesQty = 0 := by
  simp only [translateElement, Option.bind_eq_bind, Option.bind_eq_some_iff] at translated
  obtain ⟨_, -, _, -, state, named, _, -, _, -, _, -, _, -, made⟩ := translated
  rw [← Option.some.inj made, named]
  exact ⟨rfl, rfl, rfl, rfl⟩

theorem translateOrder_spec (accepted : NoError c toLong jd) {reports : List ExecutionReportData}
    (translated : translateOrder reg c toLong formatTimestamp jd = some reports) :
    ∃ elem report, reported c jd = some elem ∧ reports = [report] ∧
      translateElement reg c toLong formatTimestamp elem = some report := by
  obtain ⟨state, element⟩ := accepted
  obtain ⟨elem, element⟩ := Option.isSome_iff_exists.mp element
  obtain ⟨oar, read, code⟩ := Option.map_eq_some_iff.mp state
  have data : oar.data = jd.getArray "data" := by
    simp only [getOrderActionResult, Option.bind_eq_bind, Option.bind_eq_some_iff] at read
    obtain ⟨_, -, made⟩ := read
    rw [← Option.some.inj made]
  simp only [translateOrder, Option.bind_eq_bind, read, Option.bind_some, code, ne_eq,
    not_true_eq_false, if_false, data] at translated
  unfold reported at element
  cases listed : jd.getArray "data" with
  | none => simp [listed] at element
  | some elements =>
      cases elements with
      | nil => simp [listed] at element
      | cons first rest =>
          have extracted : c.struct first = some elem := by simpa [listed] using element
          rw [listed] at translated
          simp only [extracted, Option.bind_some, Option.bind_eq_some_iff] at translated
          obtain ⟨report, translates, made⟩ := translated
          exact ⟨elem, report, element, (Option.some.inj made).symm, translates⟩

theorem translateOrder_balanced_iff (accepted : NoError c toLong jd)
    {reports : List ExecutionReportData}
    (translated : translateOrder reg c toLong formatTimestamp jd = some reports) :
    BalancedReports (ownStatus c jd) (fillSizes c jd) reports ↔ FilledAtOnce c jd := by
  obtain ⟨elem, report, element, rfl, translates⟩ := translateOrder_spec accepted translated
  obtain ⟨own, orderQty, cumQty, leavesQty⟩ := translateElement_spec translates
  have status : ownStatus c jd = some report.status := by
    unfold ownStatus
    rw [element]
    exact own
  unfold fillSizes FilledAtOnce
  rw [status, element]
  constructor
  · intro balanced elem' same
    obtain rfl := Option.some.inj same
    have balance := balanced.balance report (List.mem_singleton_self report)
    rw [cumQty, leavesQty, orderQty, add_zero] at balance
    exact balance
  · intro filled
    refine ⟨?_, by simp [runningSums, cumQty], by simp, by simp, rfl⟩
    intro report' member
    rw [List.mem_singleton.mp member, cumQty, leavesQty, orderQty, add_zero]
    exact filled elem rfl

end Responses

end SpotGridBot.OKX.ConnectionORD

namespace SpotGridBot.Core
open Utils

/-- When the reports of a response account for the order, on each of the exchanges. -/
theorem reports_balanced_iff (reg : Registry) (c : Conversions) (toLong : Json → Option ℤ)
    (formatTimestamp : ℤ → String) (jd : Members) (reports : List ExecutionReportData) :
    (c.text jd "code" = some "" → Binance.ConnectionORD.translateOrder reg c jd = some reports →
      (BalancedReports (ownStatus c jd) (fillQtys c jd) reports ↔ Accounted c jd)) ∧
    (c.text jd "code" = some "" → Coinbase.ConnectionORD.translateOrder reg c jd = some reports →
      (BalancedReports (ownStatus c jd) (fillQtys c jd) reports ↔ Accounted c jd)) ∧
    (OKX.ConnectionORD.NoError c toLong jd →
      OKX.ConnectionORD.translateOrder reg c toLong formatTimestamp jd = some reports →
      (BalancedReports (OKX.ConnectionORD.ownStatus c jd) (OKX.ConnectionORD.fillSizes c jd)
        reports ↔ OKX.ConnectionORD.FilledAtOnce c jd)) :=
  ⟨fun accepted translated => translateOrder_balanced_iff accepted translated,
    fun accepted translated => translateOrder_balanced_iff accepted translated,
    fun accepted translated => OKX.ConnectionORD.translateOrder_balanced_iff accepted translated⟩

def filledOrder : Members :=
  [("symbol", .scalar "BTCUSDT"), ("origQty", .scalar "2"), ("status", .scalar "FILLED"),
    ("cummulativeQuoteQty", .scalar "60000"),
    ("fills", .array [
      .object [("price", .scalar "30000"), ("qty", .scalar "1.5")],
      .object [("price", .scalar "30000"), ("qty", .scalar "0.5")]])]

def filledAtOnce : Members :=
  [("code", .scalar "0"), ("data", .array [.object [
    ("ordId", .scalar "1"), ("clOrdId", .scalar ""), ("state", .scalar "filled"),
    ("ordType", .scalar "limit"), ("instId", .scalar "BTC-USDT"), ("uTime", .scalar "1"),
    ("side", .scalar "buy"), ("sz", .scalar "2"), ("fillSz", .scalar "2")]])]

theorem balanced_filledOrder :
    BalancedReports (ownStatus libraryConversions filledOrder) (fillQtys libraryConversions filledOrder)
      ((Binance.ConnectionORD.translateOrder noCurrencies libraryConversions filledOrder).getD []) ∧
    BalancedReports (ownStatus libraryConversions filledOrder) (fillQtys libraryConversions filledOrder)
      ((Coinbase.ConnectionORD.translateOrder noCurrencies libraryConversions filledOrder).getD []) ∧
    BalancedReports (OKX.ConnectionORD.ownStatus libraryConversions filledAtOnce)
      (OKX.ConnectionORD.fillSizes libraryConversions filledAtOnce)
      ((OKX.ConnectionORD.translateOrder noCurrencies libraryConversions longOfText (fun _ => "")
        filledAtOnce).getD []) := by
  have accounted : Accounted libraryConversions filledOrder := by
    unfold Accounted
    decide +kernel
  have atOnce : OKX.ConnectionORD.FilledAtOnce libraryConversions filledAtOnce := by
    intro elem element
    obtain rfl := Option.some.inj element
    rfl
  have noError : OKX.ConnectionORD.NoError libraryConversions longOfText filledAtOnce := by
    unfold OKX.ConnectionORD.NoError
    decide +kernel
  refine ⟨?_, ?_, ?_⟩
  · exact ((reports_balanced_iff noCurrencies libraryConversions longOfText (fun _ => "")
      filledOrder _).1 rfl (by decide +kernel)).mpr accounted
  · exact ((reports_balanced_iff noCurrencies libraryConversions longOfText (fun _ => "")
      filledOrder _).2.1 rfl (by decide +kernel)).mpr accounted
  · exact ((reports_balanced_iff noCurrencies libraryConversions longOfText (fun _ => "")
      filledAtOnce _).2.2 noError (by decide +kernel)).mpr atOnce

def queriedOrder : Members :=
  [("symbol", .scalar "BTCUSDT"), ("origQty", .scalar "2"), ("status", .scalar "FILLED"),
    ("cummulativeQuoteQty", .scalar "60000")]

theorem queriedOrder_unbalanced :
    ¬ ∀ (reg : Registry) (c : Conversions) (jd : Members) (reports : List ExecutionReportData),
      c.text jd "code" = some "" → Binance.ConnectionORD.translateOrder reg c jd = some reports →
      BalancedReports (ownStatus c jd) (fillQtys c jd) reports := by
  intro always
  have balanced := always noCurrencies libraryConversions queriedOrder
    ((Binance.ConnectionORD.translateOrder noCurrencies libraryConversions queriedOrder).getD [])
    rfl (by decide +kernel)
  have sums := balanced.sums
  have reported : ((Binance.ConnectionORD.translateOrder noCurrencies libraryConversions
      queriedOrder).getD []).map (·.cumQty) = [60000] := by decide +kernel
  have none : fillQtys libraryConversions queriedOrder = [] := by decide +kernel
  rw [reported, none] at sums
  norm_num at sums

end SpotGridBot.Core
