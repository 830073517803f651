import SpotGridBot.Lib.Runs
import SpotGridBot.Utils.PositionIds
import SpotGridBot.Utils.SettledRegistry
import SpotGridBot.Utils.XmlNodes

namespace SpotGridBot.Utils
open Runs

def Attributes.getXmlLong (attributes : Attributes) (name : String) (defaultValue : ℤ) : ℤ :=
  (attributes.lookup name).elim defaultValue fun text => parseLong text.toList defaultValue

namespace CurrencyConfig

def currencyDefaultPrecision : ℤ := 8
def currencyDefaultPipFactor : ℤ := 100

structure ConfigFile where
  path : String
  document : Option (List XmlNode)
  errMsg : String := ""

/-- A `BoolResult` of an error; its message is not empty. -/
def failure (errorMessage : String) : Except String Unit :=
  .error (if errorMessage = "" then "(unspecified error)" else errorMessage)

def outcome (errMsg : String) : Except String Unit :=
  if errMsg = "" then .ok () else failure errMsg

def addOutputError (errMsg err : String) : String :=
  errMsg ++ ((if errMsg = "" then "" else "\n") ++ err)

def failedToLoad (path : String) : Except String Unit :=
  failure ("Failed to load the currency config from '" ++ path ++
    "': the file does not exist or invalid")

/-! ## Currencies -/

def isCurrency (valueNode : XmlNode) : Bool :=
  valueNode.label.nodeType = .element ∧ valueNode.label.nodeName = "Currency"

def name (valueNode : XmlNode) : String :=
  trim (toupper (valueNode.label.attributes.getXmlAttribute "name" ""))

def id (valueNode : XmlNode) : ℤ := valueNode.label.attributes.getXmlInt "id" 0

def value (valueNode : XmlNode) : Currency := ⟨(id valueNode).toNat⟩

def currencySignature (valueNode : XmlNode) : String :=
  let idStr := valueNode.label.attributes.getXmlAttribute "id" ""
  let desc := trim (valueNode.label.attributes.getXmlAttribute "desc" "")
  "'" ++ name valueNode ++ "/" ++ idStr ++ (if desc = "" then "" else "/" ++ desc) ++ "'"

def invalidNode (valueNode : XmlNode) : Option String :=
  if name valueNode = "" then
    some ("Empty currency name in " ++ currencySignature valueNode ++ " - ignored")
  else if id valueNode ≤ 0 ∨ (Currency.invalid.value : ℤ) ≤ id valueNode then
    some ("Invalid currency id in " ++ currencySignature valueNode ++
      ": it must be > 0 and < 999999 - ignored")
  else none

def readCurrency (s : Names × String) (valueNode : XmlNode) : Names × String :=
  if isCurrency valueNode then
    match invalidNode valueNode with
    | some err => (s.1, addOutputError s.2 err)
    | none =>
        match s.1.registerCurrency (value valueNode) (name valueNode) with
        | (none, names) => (names, s.2)
        | (some err, names) => (names, addOutputError s.2 err)
  else s

def readCurrencies (s : Names × String) (currencyNode : XmlNode) : Names × String :=
  if currencyNode.label.nodeName = "Currencies" then currencyNode.children.foldl readCurrency s
  else s

def initializeCurrenciesFromXml (names : Names) (config : Option (List XmlNode)) :
    Except String Unit × Names :=
  if config.isNone then (failure "NULL config", names)
  else
    match getConfigNode config "CurrencyConfig" with
    | (none, errMsg) => (failure errMsg, names)
    | (some node, errMsg) =>
        let s := node.children.foldl readCurrencies (names, errMsg)
        (outcome s.2, s.1)

def initializeCurrenciesFromFile (names : Names) (file : ConfigFile) :
    Except String Unit × Names :=
  if file.document.isNone ∨ file.errMsg ≠ "" then (failedToLoad file.path, names)
  else initializeCurrenciesFromXml names file.document

/-! ## Currency pairs -/

def isCurrencyPair (valueNode : XmlNode) : Bool :=
  valueNode.label.nodeType = .element ∧ valueNode.label.nodeName = "CurrencyPair"

def currencyOf (reg : Registry) (valueNode : XmlNode) (attr : String) : Currency :=
  reg.currency (trim (toupper (valueNode.label.attributes.getXmlAttribute attr ""))).toList

/-- A pip factor that is not positive would be divided by. -/
def pip (valueNode : XmlNode) (defaultPip : ℤ) : ℤ :=
  let pip := valueNode.label.attributes.getXmlLong "pip" defaultPip
  if pip ≤ 0 then 1 else pip

def readCurrencyPair (defaultPrecision defaultPip : ℤ) (s : Registry × String)
    (valueNode : XmlNode) : Registry × String :=
  if isCurrencyPair valueNode then
    let cp : CurrencyPair := ⟨currencyOf s.1 valueNode "base", currencyOf s.1 valueNode "quote"⟩
    if ¬ cp.Valid then (s.1, addOutputError s.2 "Invalid base or quote currency")
    else
      let precision := valueNode.label.attributes.getXmlInt "precision" defaultPrecision
      ({ s.1 with cpToPrecision :=
          Function.update s.1.cpToPrecision cp (some (precision, pip valueNode defaultPip)) }, s.2)
  else s

def readPipFactors (s : Registry × String) (currencyNode : XmlNode) : Registry × String :=
  if currencyNode.label.nodeName = "PipFactors" then
    currencyNode.children.foldl
      (readCurrencyPair
        (currencyNode.label.attributes.getXmlInt "precision" currencyDefaultPrecision)
        (currencyNode.label.attributes.getXmlLong "pip" currencyDefaultPipFactor)) s
  else s

def initializeCurrencyPairsFromXml (reg : Registry) (config : Option (List XmlNode)) :
    Except String Unit × Registry :=
  if config.isNone then (failure "NULL config", reg)
  else
    match getConfigNode config "CurrencyConfig" with
    | (none, errMsg) => (failure errMsg, reg)
    | (some node, errMsg) =>
        let s := node.children.foldl readPipFactors (reg, errMsg)
        (outcome s.2, s.1)

def initializeCurrencyPairsFromFile (reg : Registry) (file : ConfigFile) :
    Except String Unit × Registry :=
  if file.document.isNone ∨ file.errMsg ≠ "" then (failedToLoad file.path, reg)
  else initializeCurrencyPairsFromXml reg file.document

/-! ## The static state -/

/-- The static maps, and the two static `init`. -/
structure Statics where
  names : Names
  currenciesInit : Bool := false
  pairsInit : Bool := false

def start : Statics := { names := ⟨Registry.valToStrMapping, []⟩ }

def initializeCurrencies (s : Statics) (cfgFile : ConfigFile) : Except String Unit × Statics :=
  if s.currenciesInit then (.ok (), s)
  else
    let (res, names) := initializeCurrenciesFromFile s.names cfgFile
    (res, { s with names, currenciesInit := res.isOk })

def initializeCurrencyPairs (s : Statics) (cfgFile : ConfigFile) : Except String Unit × Statics :=
  if s.pairsInit then (.ok (), s)
  else
    let (res, reg) := initializeCurrencyPairsFromFile s.names.reg cfgFile
    (res, { s with names := { s.names with reg }, pairsInit := res.isOk })

def initializeCurrencyConfigs (s : Statics) (cfgFile : ConfigFile) : Statics :=
  (initializeCurrencyPairs (initializeCurrencies s cfgFile).2 cfgFile).2

inductive Call where
  | initializeCurrencyConfigs (cfgFile : ConfigFile)
  | registerCurrency (value : Currency) (symbol : String)

def step (s : Statics) : Call → Statics
  | .initializeCurrencyConfigs cfgFile => initializeCurrencyConfigs s cfgFile
  | .registerCurrency value symbol =>
      { s with names := (s.names.registerCurrency value symbol).2 }

/-! ## What is read -/

def currencyNodes (node : XmlNode) : List XmlNode :=
  (node.children.filter fun currencyNode => currencyNode.label.nodeName = "Currencies").flatMap
    fun currencyNode => currencyNode.children.filter isCurrency

theorem readCurrency_other {valueNode : XmlNode} (other : isCurrency valueNode = false)
    (s : Names × String) : readCurrency s valueNode = s := by
  rw [readCurrency, other, if_neg Bool.false_ne_true]

theorem foldl_readCurrency (nodes : List XmlNode) (s : Names × String) :
    nodes.foldl readCurrency s = (nodes.filter isCurrency).foldl readCurrency s := by
  induction nodes generalizing s with
  | nil => rfl
  | cons valueNode nodes ih =>
      rw [List.foldl_cons, ih]
      cases here : isCurrency valueNode with
      | true => rw [List.filter_cons_of_pos here, List.foldl_cons]
      | false => rw [List.filter_cons_of_neg (by simp [here]), readCurrency_other here]

theorem foldl_readCurrencies (node : XmlNode) (s : Names × String) :
    node.children.foldl readCurrencies s = (currencyNodes node).foldl readCurrency s := by
  unfold currencyNodes
  induction node.children generalizing s with
  | nil => rfl
  | cons currencyNode nodes ih =>
      rw [List.foldl_cons, ih]
      by_cases here : currencyNode.label.nodeName = "Currencies"
      · rw [List.filter_cons_of_pos (by simp [here]), List.flatMap_cons, List.foldl_append,
          readCurrencies, if_pos here, foldl_readCurrency currencyNode.children]
      · rw [List.filter_cons_of_neg (by simp [here]), readCurrencies, if_neg here]

theorem addOutputError_ne (errMsg : String) {err : String} (nonempty : err ≠ "") :
    addOutputError errMsg err ≠ "" := by
  unfold addOutputError
  intro empty
  have chars := congrArg String.toList empty
  simp only [String.toList_append, String.toList_empty, List.append_eq_nil_iff] at chars
  exact nonempty (String.toList_inj.mp chars.2.2)

theorem outcome_ok {errMsg : String} : outcome errMsg = .ok () ↔ errMsg = "" := by
  unfold outcome failure
  split <;> simp_all

/-! ## What is written -/

inductive Write : Registry → Registry → Prop
  | registerCurrency (reg : Registry) (value : Currency) (symbol : String) :
      Write reg (reg.registerCurrency value symbol).1
  | setPrecision (reg : Registry) (cp : CurrencyPair) (precision : ℤ) {pip : ℤ}
      (positive : 0 < pip) : Write reg { reg with
        cpToPrecision := Function.update reg.cpToPrecision cp (some (precision, pip)) }

abbrev Writes : Registry → Registry → Prop := Relation.ReflTransGen Write

variable {reg reg' : Registry}

theorem Writes.settled (writes : Writes reg reg') (settled : reg.Settled) : reg'.Settled := by
  induction writes with
  | refl => exact settled
  | tail _ write ih =>
      cases write with
      | registerCurrency value symbol => exact ih.registerCurrency value symbol
      | setPrecision cp precision positive => exact ih.withPrecision cp precision positive

theorem Writes.keeps (writes : Writes reg reg') {c : Currency} {text : String}
    (known : reg.valToStr c = some text) : reg'.valToStr c = some text := by
  induction writes with
  | refl => exact known
  | tail _ write ih =>
      cases write with
      | registerCurrency value symbol => exact Registry.registerCurrency_keeps ih value symbol
      | setPrecision => exact ih

theorem foldl_writes {σ α : Type*} (view : σ → Registry) {f : σ → α → σ}
    (each : ∀ s a, (view s).Settled → Writes (view s) (view (f s a))) (items : List α) {s : σ}
    (settled : (view s).Settled) : Writes (view s) (view (items.foldl f s)) := by
  induction items generalizing s with
  | nil => exact .refl
  | cons item items ih =>
      have first := each s item settled
      exact first.trans (ih (first.settled settled))

theorem registerCurrency_writes {s : Names} (settled : s.reg.Settled) (value : Currency)
    (symbol : String) : Writes s.reg (s.registerCurrency value symbol).2.reg := by
  rw [Names.registerCurrency_reg settled.bijective]
  exact .single (.registerCurrency s.reg value symbol)

theorem readCurrency_writes (s : Names × String) (valueNode : XmlNode)
    (settled : s.1.reg.Settled) : Writes s.1.reg (readCurrency s valueNode).1.reg := by
  have registered := registerCurrency_writes settled (value valueNode) (name valueNode)
  unfold readCurrency
  split
  next =>
    split
    next => exact .refl
    next =>
      split
      next called => rwa [called] at registered
      next called => rwa [called] at registered
  next => exact .refl

theorem initializeCurrencies_writes {s : Statics} (settled : s.names.reg.Settled)
    (cfgFile : ConfigFile) :
    Writes s.names.reg (initializeCurrencies s cfgFile).2.names.reg := by
  unfold initializeCurrencies initializeCurrenciesFromFile initializeCurrenciesFromXml
  split
  next => exact .refl
  next =>
    dsimp only
    split
    next => exact .refl
    next =>
      split
      next => exact .refl
      next =>
        split
        next => exact .refl
        next node errMsg _ =>
          dsimp only
          rw [foldl_readCurrencies]
          exact foldl_writes (fun s : Names × String => s.1.reg) readCurrency_writes _
            (s := (s.names, errMsg)) settled

theorem pip_pos (valueNode : XmlNode) (defaultPip : ℤ) : 0 < pip valueNode defaultPip := by
  unfold pip
  dsimp only
  split <;> omega

theorem readCurrencyPair_writes (defaultPrecision defaultPip : ℤ) (s : Registry × String)
    (valueNode : XmlNode) (_ : s.1.Settled) :
    Writes s.1 (readCurrencyPair defaultPrecision defaultPip s valueNode).1 := by
  unfold readCurrencyPair
  split
  next =>
    dsimp only
    split
    next => exact .refl
    next => exact .single (.setPrecision s.1 _ _ (pip_pos valueNode defaultPip))
  next => exact .refl

theorem readPipFactors_writes (s : Registry × String) (currencyNode : XmlNode)
    (settled : s.1.Settled) : Writes s.1 (readPipFactors s currencyNode).1 := by
  unfold readPipFactors
  split
  next => exact foldl_writes Prod.fst (readCurrencyPair_writes _ _) _ settled
  next => exact .refl

theorem initializeCurrencyPairs_writes {s : Statics} (settled : s.names.reg.Settled)
    (cfgFile : ConfigFile) :
    Writes s.names.reg (initializeCurrencyPairs s cfgFile).2.names.reg := by
  unfold initializeCurrencyPairs initializeCurrencyPairsFromFile initializeCurrencyPairsFromXml
  split
  next => exact .refl
  next =>
    dsimp only
    split
    next => exact .refl
    next =>
      split
      next => exact .refl
      next =>
        split
        next => exact .refl
        next node errMsg _ =>
          exact foldl_writes Prod.fst readPipFactors_writes _ (s := (s.names.reg, errMsg)) settled

theorem step_writes (s : Statics) (call : Call) (settled : s.names.reg.Settled) :
    Writes s.names.reg (step s call).names.reg := by
  cases call with
  | initializeCurrencyConfigs cfgFile =>
      have first := initializeCurrencies_writes settled cfgFile
      exact first.trans (initializeCurrencyPairs_writes (first.settled settled) cfgFile)
  | registerCurrency value symbol => exact registerCurrency_writes settled value symbol

theorem run_writes {s : Statics} (settled : s.names.reg.Settled) (calls : List Call) :
    Writes s.names.reg (run step s calls).names.reg :=
  foldl_writes (fun s : Statics => s.names.reg) step_writes calls settled

abbrev registry (calls : List Call) : Registry := (run step start calls).names.reg

theorem run_settled (calls : List Call) : (registry calls).Settled :=
  (run_writes Registry.valToStrMapping_settled calls).settled Registry.valToStrMapping_settled

/-- Whatever files are loaded and whatever is registered, every pair is read back exactly while no
symbol has a delimiter; one symbol that is not of three characters makes sure of that. -/
theorem roundTrips_iff_plainSymbols (calls : List Call) : Always step (fun s =>
    s.names.reg.PipsPositive ∧ (s.names.reg.RoundTrips ↔ s.names.reg.PlainSymbols) ∧
      (s.names.reg.HasOtherLength → s.names.reg.PlainSymbols)) start calls := by
  rw [always_iff_prefixes]
  intro before _
  have settled := run_settled before
  exact ⟨settled.pips, settled.roundTrips_iff, settled.plain_of_otherLength⟩

/-! ## What a success says -/

theorem message_ne {s : Names} {c : Currency} {symbol message : String}
    (refused : (s.registerCurrency c symbol).1 = some message) : message ≠ "" := by
  have started {front rest : String} (nonempty : front ≠ "") : front ++ rest ≠ "" := by
    intro empty
    have chars := congrArg String.toList empty
    simp only [String.toList_append, String.toList_empty, List.append_eq_nil_iff] at chars
    exact nonempty (String.toList_inj.mp chars.1)
  unfold Names.registerCurrency Names.checkRegisteredCurrencies at refused
  split at refused
  next =>
    obtain rfl := Option.some.inj refused
    exact started (started (by decide))
  next =>
    split at refused
    next =>
      obtain rfl := Option.some.inj refused
      exact started (started (by decide))
    next =>
      split at refused
      next => cases refused
      next checked =>
        split at checked
        next => cases checked
        next =>
          obtain rfl := Option.some.inj refused
          split at checked
          next =>
            obtain rfl := Option.some.inj (Prod.mk.inj checked).1
            exact started (started (by decide))
          next =>
            obtain rfl := Option.some.inj (Prod.mk.inj checked).1
            exact started (started (started (started (by decide))))

theorem invalidNode_eq_none {valueNode : XmlNode} : invalidNode valueNode = none ↔
    name valueNode ≠ "" ∧ 0 < id valueNode ∧ id valueNode < Currency.invalid.value := by
  unfold invalidNode
  split_ifs with empty outside
  · simp [empty]
  · simp only [false_iff, not_and]
    omega
  · simp only [true_iff]
    exact ⟨empty, by omega⟩

theorem invalidNode_ne {valueNode : XmlNode} {err : String}
    (refused : invalidNode valueNode = some err) : err ≠ "" := by
  rintro rfl
  have chars := congrArg (Option.map String.toList) refused
  unfold invalidNode at chars
  split_ifs at chars <;> simp [String.toList_append] at chars

theorem readCurrency_cases {s : Names × String} {valueNode : XmlNode}
    (currency : isCurrency valueNode) (settled : s.1.reg.Settled) :
    (name valueNode ≠ "" ∧ (0 < id valueNode ∧ id valueNode < Currency.invalid.value) ∧
        s.1.reg.valToStr (value valueNode) = none ∧
        (readCurrency s valueNode).1.reg = s.1.reg.extend (value valueNode) (name valueNode) ∧
        (readCurrency s valueNode).2 = s.2) ∨
      (readCurrency s valueNode).1.reg = s.1.reg ∧ (readCurrency s valueNode).2 ≠ "" := by
  have registered :=
    Names.registerCurrency_reg settled.bijective (value valueNode) (name valueNode)
  have refines := s.1.registerCurrency_refines (value valueNode) (name valueNode)
  unfold readCurrency
  rw [if_pos currency]
  cases node : invalidNode valueNode with
  | some err => exact .inr ⟨rfl, addOutputError_ne s.2 (invalidNode_ne node)⟩
  | none =>
      obtain ⟨named, range⟩ := invalidNode_eq_none.mp node
      cases call : s.1.registerCurrency (value valueNode) (name valueNode) with
      | mk message names =>
          rw [call] at registered refines
          dsimp only
          obtain same | ⟨newValue, -, -, same⟩ :=
            s.1.reg.registerCurrency_cases (value valueNode) (name valueNode)
          · rw [same] at registered refines
            cases message with
            | none => cases refines.1
            | some err =>
                exact .inr ⟨registered, addOutputError_ne s.2 (message_ne (congrArg Prod.fst call))⟩
          · rw [same] at registered refines
            cases message with
            | none => exact .inl ⟨named, range, newValue, registered, rfl⟩
            | some err => cases refines.1

theorem readCurrency_failed {s : Names × String} (failed : s.2 ≠ "") (valueNode : XmlNode) :
    (readCurrency s valueNode).2 ≠ "" := by
  have nonempty (err : String) : addOutputError s.2 err ≠ "" := by
    unfold addOutputError
    intro empty
    have chars := congrArg String.toList empty
    simp only [String.toList_append, String.toList_empty, List.append_eq_nil_iff] at chars
    exact failed (String.toList_inj.mp chars.1)
  unfold readCurrency
  split
  next =>
    split
    next => exact nonempty _
    next =>
      split
      next => exact failed
      next => exact nonempty _
  next => exact failed

theorem foldl_failed {s : Names × String} (failed : s.2 ≠ "") (nodes : List XmlNode) :
    (nodes.foldl readCurrency s).2 ≠ "" := by
  induction nodes generalizing s with
  | nil => exact failed
  | cons valueNode nodes ih => exact ih (readCurrency_failed failed valueNode)

theorem foldl_absent {s : Names × String} {nodes : List XmlNode} {c : Currency}
    (currencies : ∀ e ∈ nodes, isCurrency e) (settled : s.1.reg.Settled)
    (others : ∀ e ∈ nodes, value e ≠ c) (absent : s.1.reg.valToStr c = none) :
    (nodes.foldl readCurrency s).1.reg.valToStr c = none := by
  induction nodes generalizing s with
  | nil => exact absent
  | cons valueNode nodes ih =>
      obtain ⟨currency, currencies⟩ := List.forall_mem_cons.mp currencies
      obtain ⟨other, others⟩ := List.forall_mem_cons.mp others
      have settled' := (readCurrency_writes s valueNode settled).settled settled
      refine ih currencies settled' others ?_
      obtain ⟨-, -, -, same, -⟩ | ⟨same, -⟩ := readCurrency_cases currency settled
      · rw [same]
        exact (Function.update_of_ne (Ne.symm other) _ _).trans absent
      · rw [same]
        exact absent

theorem id_eq_of_value {e e' : XmlNode} (positive : 0 < id e) (positive' : 0 < id e')
    (same : value e = value e') : id e = id e' := by
  have same : (id e).toNat = (id e').toNat := congrArg Currency.value same
  omega

theorem value_valid {e : XmlNode} (range : 0 < id e ∧ id e < Currency.invalid.value) :
    (value e).Valid := by
  constructor
  · intro empty
    have zero : (id e).toNat = 0 := congrArg Currency.value empty
    omega
  · intro invalid
    have last : (id e).toNat = Currency.invalid.value := congrArg Currency.value invalid
    omega

structure Added (reg reg' : Registry) (e : XmlNode) : Prop where
  range : 0 < id e ∧ id e < Currency.invalid.value
  absent : reg.valToStr (value e) = none
  there : reg'.valToStr (value e) = some (name e)

theorem foldl_ok_iff {s : Names × String} {nodes : List XmlNode}
    (currencies : ∀ e ∈ nodes, isCurrency e) (settled : s.1.reg.Settled) (clean : s.2 = "") :
    (nodes.foldl readCurrency s).2 = "" ↔ (nodes.map id).Nodup ∧
      ∀ e ∈ nodes, Added s.1.reg (nodes.foldl readCurrency s).1.reg e := by
  induction nodes generalizing s with
  | nil => simp [clean]
  | cons first nodes ih =>
      obtain ⟨currency, currencies⟩ := List.forall_mem_cons.mp currencies
      have settled' := (readCurrency_writes s first settled).settled settled
      rw [List.foldl_cons, List.map_cons, List.nodup_cons, List.forall_mem_cons]
      obtain ⟨named, range, absent, same, quiet⟩ | ⟨same, failed⟩ :=
        readCurrency_cases currency settled
      · rw [ih currencies settled' (quiet.trans clean)]
        have here : (readCurrency s first).1.reg.valToStr (value first) = some (name first) := by
          rw [same]
          exact Function.update_self _ _ _
        have there := (foldl_writes (fun s : Names × String => s.1.reg) readCurrency_writes nodes
          settled').keeps here
        constructor
        · rintro ⟨distinct, added⟩
          have others : ∀ e ∈ nodes, value e ≠ value first := by
            intro e member same'
            have new := (added e member).absent
            rw [same', here] at new
            cases new
          refine ⟨⟨?_, distinct⟩, ⟨range, absent, there⟩, fun e member => ?_⟩
          · rw [List.mem_map]
            rintro ⟨e, member, same'⟩
            refine others e member ?_
            rw [value, same', value]
          · obtain ⟨range', absent', there'⟩ := added e member
            rw [same] at absent'
            refine ⟨range', ?_, there'⟩
            exact (Function.update_of_ne (others e member) _ _).symm.trans absent'
        · rintro ⟨⟨fresh, distinct⟩, -, added⟩
          refine ⟨distinct, fun e member => ?_⟩
          obtain ⟨range', absent', there'⟩ := added e member
          have other : value e ≠ value first := by
            intro same'
            exact fresh (List.mem_map.mpr ⟨e, member, id_eq_of_value range'.1 range.1 same'⟩)
          refine ⟨range', ?_, there'⟩
          rw [same]
          exact (Function.update_of_ne other _ _).trans absent'
      · constructor
        · intro ok
          exact absurd ok (foldl_failed failed nodes)
        · rintro ⟨⟨fresh, -⟩, ⟨range, absent, there⟩, added⟩
          have others : ∀ e ∈ nodes, value e ≠ value first := by
            intro e member same'
            have ids := id_eq_of_value (added e member).range.1 range.1 same'
            exact fresh (List.mem_map.mpr ⟨e, member, ids⟩)
          have missing := foldl_absent currencies settled' others (same ▸ absent)
          rw [missing] at there
          cases there

theorem isCurrency_of_mem {node e : XmlNode} (member : e ∈ currencyNodes node) :
    isCurrency e := by
  obtain ⟨currencyNode, -, inside⟩ := List.mem_flatMap.mp member
  exact (List.mem_filter.mp inside).2

def Carries (reg : Registry) (value : Currency) (symbol : String) : Prop :=
  reg.currency symbol.toList = value ∧ reg.symbol value = symbol

theorem carries_iff (settled : reg.Settled) {c : Currency} {symbol : String} (valid : c.Valid) :
    Carries reg c symbol ↔ reg.valToStr c = some symbol := by
  constructor
  · rintro ⟨read, -⟩
    have found := reg.currency_valid (read.symm ▸ valid : (reg.currency symbol.toList).Valid)
    rw [read, String.ofList_toList] at found
    exact (settled.bijective symbol c).mp found
  · intro text
    have found := (settled.bijective symbol c).mpr text
    constructor
    · simp [Registry.currency, found]
    · rw [Registry.symbol, text, Option.getD_some]

/-- `InitializeCurrencies` reports success exactly where every currency of the document is new,
under an id of its own, and stays under its name from then on. -/
theorem initializeCurrencies_ok_iff (calls : List Call) (cfgFile : ConfigFile)
    {nodes : List XmlNode} {node : XmlNode} {errMsg : String}
    (fresh : (run step start calls).currenciesInit = false)
    (loaded : cfgFile.document = some nodes) (readable : cfgFile.errMsg = "")
    (found : getConfigNode (some nodes) "CurrencyConfig" = (some node, errMsg)) :
    (initializeCurrencies (run step start calls) cfgFile).1 = .ok () ↔
      ((currencyNodes node).map id).Nodup ∧ ∀ e ∈ currencyNodes node,
        (0 < id e ∧ id e < Currency.invalid.value) ∧
        (run step start calls).names.reg.valToStr (value e) = none ∧
        ∀ later, Carries
          (run step (initializeCurrencies (run step start calls) cfgFile).2 later).names.reg
          (value e) (name e) := by
  have settled : (run step start calls).names.reg.Settled := run_settled calls
  have settled' := (initializeCurrencies_writes settled cfgFile).settled settled
  have writes (later : List Call) := run_writes settled' later
  generalize run step start calls = s at *
  have result : initializeCurrencies s cfgFile =
      (outcome ((currencyNodes node).foldl readCurrency (s.names, errMsg)).2,
        { s with
          names := ((currencyNodes node).foldl readCurrency (s.names, errMsg)).1
          currenciesInit :=
            (outcome ((currencyNodes node).foldl readCurrency (s.names, errMsg)).2).isOk }) := by
    simp [initializeCurrencies, fresh, initializeCurrenciesFromFile, loaded, readable,
      initializeCurrenciesFromXml, found, foldl_readCurrencies]
  obtain rfl := getConfigNode_found found
  have currencies : ∀ e ∈ currencyNodes node, isCurrency e := fun _ => isCurrency_of_mem
  have ok := foldl_ok_iff currencies settled rfl (s := (s.names, ""))
  rw [result] at settled' writes ⊢
  dsimp only at settled' writes ⊢
  rw [outcome_ok, ok]
  refine and_congr_right fun distinct => forall₂_congr fun e member => ?_
  constructor
  · rintro ⟨range, absent, there⟩
    refine ⟨range, absent, fun later => ?_⟩
    exact (carries_iff ((writes later).settled settled') (value_valid range)).mpr
      ((writes later).keeps there)
  · rintro ⟨range, absent, stays⟩
    exact ⟨range, absent, (carries_iff settled' (value_valid range)).mp (stays [])⟩

def currencyNode (name id : String) : XmlNode :=
  .node ⟨.element, "Currency", "Currency", [("name", name), ("id", id)]⟩ []

def sharedId : XmlNode :=
  .node ⟨.element, "CurrencyConfig", "CurrencyConfig", []⟩
    [.node ⟨.element, "Currencies", "Currencies", []⟩
      [currencyNode "BTC" "1001", currencyNode "BNB" "1001"]]

theorem initializeCurrencies_sharedId :
    (initializeCurrencies start ⟨"CurrencyConfig.xml", some [sharedId], ""⟩).1 ≠ .ok () := by
  intro ok
  have found : getConfigNode (some [sharedId]) "CurrencyConfig" = (some sharedId, "") := rfl
  have added := (initializeCurrencies_ok_iff [] ⟨"CurrencyConfig.xml", some [sharedId], ""⟩
    rfl rfl rfl found).mp ok
  have distinct : ((currencyNodes sharedId).map id).Nodup := added.1
  revert distinct
  decide +kernel

/-! ## The precisions of pairs -/

structure PairNode where
  defaultPrecision : ℤ
  defaultPip : ℤ
  valueNode : XmlNode

namespace PairNode
variable (reg : Registry) (item : PairNode)

def cp : CurrencyPair :=
  ⟨currencyOf reg item.valueNode "base", currencyOf reg item.valueNode "quote"⟩

def precision : ℤ × ℤ :=
  (item.valueNode.label.attributes.getXmlInt "precision" item.defaultPrecision,
    pip item.valueNode item.defaultPip)

end PairNode

def pairNodes (node : XmlNode) : List PairNode :=
  (node.children.filter fun currencyNode => currencyNode.label.nodeName = "PipFactors").flatMap
    fun currencyNode => (currencyNode.children.filter isCurrencyPair).map fun valueNode => {
      defaultPrecision :=
        currencyNode.label.attributes.getXmlInt "precision" currencyDefaultPrecision
      defaultPip := currencyNode.label.attributes.getXmlLong "pip" currencyDefaultPipFactor
      valueNode }

def readPairNode (s : Registry × String) (item : PairNode) : Registry × String :=
  readCurrencyPair item.defaultPrecision item.defaultPip s item.valueNode

theorem foldl_readCurrencyPair (defaultPrecision defaultPip : ℤ) (nodes : List XmlNode)
    (s : Registry × String) : nodes.foldl (readCurrencyPair defaultPrecision defaultPip) s =
      ((nodes.filter isCurrencyPair).map
        fun valueNode => (⟨defaultPrecision, defaultPip, valueNode⟩ : PairNode)).foldl
          readPairNode s := by
  induction nodes generalizing s with
  | nil => rfl
  | cons valueNode nodes ih =>
      rw [List.foldl_cons, ih]
      cases here : isCurrencyPair valueNode with
      | true => rw [List.filter_cons_of_pos here, List.map_cons, List.foldl_cons, readPairNode]
      | false =>
          rw [List.filter_cons_of_neg (by simp [here]), readCurrencyPair, here,
            if_neg Bool.false_ne_true]

theorem foldl_readPipFactors (node : XmlNode) (s : Registry × String) :
    node.children.foldl readPipFactors s = (pairNodes node).foldl readPairNode s := by
  unfold pairNodes
  induction node.children generalizing s with
  | nil => rfl
  | cons currencyNode nodes ih =>
      rw [List.foldl_cons, ih]
      by_cases here : currencyNode.label.nodeName = "PipFactors"
      · rw [List.filter_cons_of_pos (by simp [here]), List.flatMap_cons, List.foldl_append,
          readPipFactors, if_pos here, foldl_readCurrencyPair]
      · rw [List.filter_cons_of_neg (by simp [here]), readPipFactors, if_neg here]

theorem isCurrencyPair_of_mem {node : XmlNode} {item : PairNode} (member : item ∈ pairNodes node) :
    isCurrencyPair item.valueNode := by
  obtain ⟨currencyNode, -, inside⟩ := List.mem_flatMap.mp member
  obtain ⟨valueNode, kept, rfl⟩ := List.mem_map.mp inside
  exact (List.mem_filter.mp kept).2

theorem readPairNode_cases {item : PairNode} (pair : isCurrencyPair item.valueNode)
    (s : Registry × String) :
    (item.cp s.1).Valid ∧ readPairNode s item = ({ s.1 with
        cpToPrecision := Function.update s.1.cpToPrecision (item.cp s.1) (some item.precision) },
        s.2) ∨
      ¬ (item.cp s.1).Valid ∧
        readPairNode s item = (s.1, addOutputError s.2 "Invalid base or quote currency") := by
  unfold readPairNode readCurrencyPair
  rw [if_pos pair]
  by_cases valid : (item.cp s.1).Valid
  · exact .inl ⟨valid, if_neg (not_not_intro valid)⟩
  · exact .inr ⟨valid, if_pos valid⟩

theorem foldl_readPairNode {items : List PairNode}
    (pairs : ∀ item ∈ items, isCurrencyPair item.valueNode) (s : Registry × String) :
    ((items.foldl readPairNode s).2 = "" ↔ s.2 = "" ∧ ∀ item ∈ items, (item.cp s.1).Valid) ∧
      ∀ cp : CurrencyPair, cp.Valid → (items.foldl readPairNode s).1.cpToPrecision cp =
        ((items.map fun item => (item.cp s.1, item.precision)).reverse.lookup cp).or
          (s.1.cpToPrecision cp) := by
  induction items generalizing s with
  | nil => simp
  | cons item items ih =>
      obtain ⟨pair, pairs⟩ := List.forall_mem_cons.mp pairs
      obtain ⟨errors, precisions⟩ := ih pairs (readPairNode s item)
      -- Neither case changes what the currencies of a node are.
      have cps : (fun other : PairNode => (other.cp (readPairNode s item).1, other.precision)) =
          fun other => (other.cp s.1, other.precision) := by
        obtain ⟨-, same⟩ | ⟨-, same⟩ := readPairNode_cases pair s
        · rw [same]
          rfl
        · rw [same]
      have valid (other : PairNode) :
          (other.cp (readPairNode s item).1).Valid ↔ (other.cp s.1).Valid := by
        rw [(Prod.mk.inj (congrFun cps other)).1]
      rw [cps] at precisions
      simp only [valid] at errors
      rw [List.foldl_cons, List.forall_mem_cons, errors]
      refine ⟨?_, fun cp cpValid => ?_⟩
      · obtain ⟨here, same⟩ | ⟨here, same⟩ := readPairNode_cases pair s
        · rw [same]
          simp [here]
        · rw [same]
          simp [here, addOutputError_ne]
      · rw [precisions cp cpValid, List.map_cons, List.reverse_cons, List.lookup_append,
          Option.or_assoc]
        congr 1
        rw [List.lookup_cons]
        by_cases names : cp = item.cp s.1
        · obtain ⟨-, same⟩ | ⟨other, -⟩ := readPairNode_cases pair s
          · rw [same, names, beq_self_eq_true]
            exact Function.update_self _ _ _
          · exact absurd (names ▸ cpValid) other
        · rw [beq_false_of_ne names, List.lookup_nil, Option.none_or]
          obtain ⟨-, same⟩ | ⟨-, same⟩ := readPairNode_cases pair s
          · rw [same]
            exact Function.update_of_ne names _ _
          · rw [same]

/-- The last node of a pair gives its precision, a pip factor above zero among it, even where other
nodes are in error; there is an error exactly where a currency is not known. -/
theorem initializeCurrencyPairs_spec (calls : List Call) (cfgFile : ConfigFile)
    {nodes : List XmlNode} {node : XmlNode} {errMsg : String}
    (fresh : (run step start calls).pairsInit = false)
    (loaded : cfgFile.document = some nodes) (readable : cfgFile.errMsg = "")
    (found : getConfigNode (some nodes) "CurrencyConfig" = (some node, errMsg)) :
    ((initializeCurrencyPairs (run step start calls) cfgFile).1 = .ok () ↔
        ∀ item ∈ pairNodes node, (item.cp (run step start calls).names.reg).Valid) ∧
      ∀ cp : CurrencyPair, cp.Valid →
        (initializeCurrencyPairs (run step start calls) cfgFile).2.names.reg.cpToPrecision cp =
          (((pairNodes node).map fun item =>
              (item.cp (run step start calls).names.reg, item.precision)).reverse.lookup cp).or
            ((run step start calls).names.reg.cpToPrecision cp) := by
  generalize run step start calls = s at *
  have result : initializeCurrencyPairs s cfgFile =
      (outcome ((pairNodes node).foldl readPairNode (s.names.reg, errMsg)).2,
        { s with
          names.reg := ((pairNodes node).foldl readPairNode (s.names.reg, errMsg)).1
          pairsInit :=
            (outcome ((pairNodes node).foldl readPairNode (s.names.reg, errMsg)).2).isOk }) := by
    simp [initializeCurrencyPairs, fresh, initializeCurrencyPairsFromFile, loaded, readable,
      initializeCurrencyPairsFromXml, found, foldl_readPipFactors]
  obtain rfl := getConfigNode_found found
  have pairs : ∀ item ∈ pairNodes node, isCurrencyPair item.valueNode :=
    fun _ => isCurrencyPair_of_mem
  obtain ⟨errors, precisions⟩ := foldl_readPairNode pairs (s.names.reg, "")
  rw [result]
  refine ⟨?_, precisions⟩
  rw [outcome_ok, errors]
  simp

def pairNode (base quote pip : String) : XmlNode :=
  .node ⟨.element, "CurrencyPair", "CurrencyPair",
    [("base", base), ("quote", quote), ("pip", pip)]⟩ []

def zeroPip : XmlNode :=
  .node ⟨.element, "CurrencyConfig", "CurrencyConfig", []⟩
    [.node ⟨.element, "PipFactors", "PipFactors", [("precision", "6")]⟩
      [pairNode "EUR" "USD" "10000", pairNode "BTC" "USD" "100", pairNode "eur" " usd" "0"]]

theorem initializeCurrencyPairs_zeroPip :
    (initializeCurrencyPairs start ⟨"CurrencyConfig.xml", some [zeroPip], ""⟩).1 ≠ .ok () ∧
      (initializeCurrencyPairs start
        ⟨"CurrencyConfig.xml", some [zeroPip], ""⟩).2.names.reg.cpToPrecision ⟨.eur, .usd⟩ =
          some (6, 1) := by
  have found : getConfigNode (some [zeroPip]) "CurrencyConfig" = (some zeroPip, "") := rfl
  have spec := initializeCurrencyPairs_spec []
    ⟨"CurrencyConfig.xml", some [zeroPip], ""⟩ rfl rfl rfl found
  have noCalls : run step start [] = start := rfl
  rw [noCalls] at spec
  obtain ⟨ok, precisions⟩ := spec
  constructor
  · intro success
    have known : ∀ item ∈ pairNodes zeroPip, (item.cp Registry.valToStrMapping).Valid :=
      ok.mp success
    revert known
    decide +kernel
  · have valid : CurrencyPair.Valid ⟨.eur, .usd⟩ := by decide
    rw [precisions ⟨.eur, .usd⟩ valid]
    have last : (((pairNodes zeroPip).map fun item =>
        (item.cp Registry.valToStrMapping, item.precision)).reverse.lookup ⟨.eur, .usd⟩).or none =
          some (6, 1) := by
      decide +kernel
    exact last

end CurrencyConfig
end SpotGridBot.Utils
