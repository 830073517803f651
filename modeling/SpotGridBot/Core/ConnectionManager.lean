import SpotGridBot.Lib.Keyed
import SpotGridBot.Lib.OrderedMap
import SpotGridBot.Lib.Runs
import SpotGridBot.Utils.XmlNodes
import Mathlib.Data.String.Basic

/-!
# The connection manager

`LoadConfig` reads the sessions of the configuration and the constructor creates a connection for
each. `OrderConnection` looks the order connection up with `operator[]`: where no session trades
over REST its name is empty, and a null session is put under the empty name.
-/

namespace SpotGridBot.Core
open Utils Runs

/-! ## The configuration -/

structure ParameterNode where
  nodeType : XmlConfigReader.NodeType
  localName : String
  attributes : Attributes

structure SessionNode where
  nodeType : XmlConfigReader.NodeType
  attributes : Attributes
  childNodes : List ParameterNode := []

def readParameters (childNodes : List ParameterNode) : List (String × String) :=
  childNodes.foldl (fun parameters node =>
    if node.nodeType = .element ∧ node.localName = "Parameter" then
      let name := trim (node.attributes.getXmlAttribute "name" "")
      if name = "" ∨ (parameters.lookup name).isSome then parameters
      else parameters ++ [(name, trim (node.attributes.getXmlAttribute "value" ""))]
    else parameters) []

structure Settings where
  numId : ℤ := 0
  name : String := ""
  active : Bool := false
  host : String := ""
  port : ℤ := 0
  ordersHttp : String := ""
  snapshotHttp : String := ""
  apikey : String := ""
  secretkey : String := ""
  passphrase : String := ""
  recvWindow : ℤ := 0
  channels : String := ""
  instruments : String := ""
  depth : ℕ := 0
  protocol : String := ""
  schema : String := ""
  parameters : List (String × String) := []
deriving DecidableEq, Repr

def contains (part text : String) : Bool := part.toList <:+: text.toList

def adjustSchema (protocol schema : String) : String :=
  if contains ":ORD" schema && contains "Coinbase" schema then
    if protocol = "ws" then "Coinbase:ORDWS" else "Coinbase:ORD"
  else schema

def readSettings (node : SessionNode) : Settings :=
  let protocol := node.attributes.getXmlAttribute "protocol" "ws"
  { numId := node.attributes.getXmlInt "num_id" 0
    name := node.attributes.getXmlAttribute "name" ""
    active := node.attributes.getXmlAttribute "active" "false" = "true"
    host := node.attributes.getXmlAttribute "host" ""
    port := node.attributes.getXmlInt "port" 443
    ordersHttp := node.attributes.getXmlAttribute "orders_http" ""
    snapshotHttp := node.attributes.getXmlAttribute "snapshot_http" ""
    apikey := node.attributes.getXmlAttribute "api_key" ""
    secretkey := node.attributes.getXmlAttribute "secret_key" ""
    passphrase := node.attributes.getXmlAttribute "passphrase" ""
    recvWindow := node.attributes.getXmlInt "recv_window" 5000
    channels := node.attributes.getXmlAttribute "channels" ""
    instruments := node.attributes.getXmlAttribute "instruments" ""
    depth := (node.attributes.getXmlInt "depth" 0 % 2 ^ 32).toNat
    protocol := protocol
    schema := adjustSchema protocol (node.attributes.getXmlAttribute "schema" "")
    parameters := readParameters node.childNodes }

abbrev SettingsCollection := ℤ → Option Settings

def sessionSettings (children : List SessionNode) : List Settings :=
  (children.filter fun node => node.nodeType = .element).map readSettings

/-- A session replaces the one that was read before with its `num_id`; the node `SessionConfig` may
be missing. -/
def loadConfig (baseNode : Option (List SessionNode)) : Bool × SettingsCollection :=
  match baseNode with
  | none => (false, fun _ => none)
  | some children => (true, (sessionSettings children).foldl (fun collection settings =>
      Function.update collection settings.numId (some settings)) fun _ => none)

/-! ## Connections -/

inductive ConnectionClass where
  | binanceMD | binanceORD
  | coinbaseMD | coinbaseORD | coinbaseORDWS
  | okxMD | okxORD
deriving DecidableEq, Repr

def ConnectionClass.isRest : ConnectionClass → Bool
  | .binanceORD | .coinbaseORD | .okxORD => true
  | .binanceMD | .coinbaseMD | .coinbaseORDWS | .okxMD => false

def connectionsFactory : List (String × ConnectionClass) :=
  [("Binance:MD", .binanceMD), ("Binance:ORD", .binanceORD),
    ("Coinbase:MD", .coinbaseMD), ("Coinbase:ORD", .coinbaseORD),
    ("Coinbase:ORDWS", .coinbaseORDWS), ("OKX:MD", .okxMD), ("OKX:ORD", .okxORD)]

def findConnectionCreator (schema : String) : Option ConnectionClass :=
  connectionsFactory.lookup schema

structure Connection where
  ofClass : ConnectionClass
  settings : Settings
deriving DecidableEq, Repr

/-- A null session is `none`. -/
structure ConnectionManager where
  settingsCollection : SettingsCollection
  connections : List (String × Option Connection) := []
  orderConnectionName : String := ""
  lastError : String := ""

def nameLt (a b : String) : Bool := a < b

namespace ConnectionManager
variable (m : ConnectionManager)

def find (name : String) : Option (String × Option Connection) :=
  OrderedMap.find nameLt name m.connections

def createSession (numId : ℤ) : ConnectionManager :=
  let settings := (m.settingsCollection numId).getD {}
  let m := { m with
    settingsCollection := Function.update m.settingsCollection numId (some settings) }
  match findConnectionCreator settings.schema with
  | none => { m with lastError := "Not supported schema '" ++ settings.schema ++ "'" }
  | some creator =>
      let m := { m with
        connections := OrderedMap.emplace nameLt m.connections
          (settings.name, some ⟨creator, settings⟩) }
      if contains ":ORD" settings.schema && !contains ":ORDWS" settings.schema then
        { m with orderConnectionName := settings.name }
      else m

def create (settingsCollection : SettingsCollection) (order : List ℤ) : ConnectionManager :=
  order.foldl createSession { settingsCollection }

/-- The sessions that `Connect` and `Disconnect` dereference, unless one of them is null. -/
def sessions : Option (List Connection) := m.connections.mapM Prod.snd

/-- `m_connections[m_orderConnection]`. -/
def orderConnection : Option Connection × ConnectionManager :=
  match m.find m.orderConnectionName with
  | some entry => (entry.2, m)
  | none =>
      (none, { m with
        connections := OrderedMap.emplace nameLt m.connections (m.orderConnectionName, none) })

inductive Call where
  | createSession (numId : ℤ)
  | connect
  | disconnect
  | orderConnection
deriving DecidableEq, Repr

def step : Call → ConnectionManager
  | .createSession numId => m.createSession numId
  | .connect | .disconnect => m
  | .orderConnection => m.orderConnection.2

def Safe : Call → Prop
  | .connect | .disconnect => m.sessions.isSome
  | .createSession _ | .orderConnection => True

instance : (call : Call) → Decidable (m.Safe call)
  | .connect | .disconnect => inferInstanceAs (Decidable (m.sessions.isSome = true))
  | .createSession _ | .orderConnection => .isTrue trivial

/-! ## Null sessions -/

def NoNull : Prop := m.sessions.isSome

def Named : Prop := (m.find m.orderConnectionName).isSome

def Guarded : Call → Prop
  | .orderConnection => m.Named
  | .createSession _ | .connect | .disconnect => True

variable {m}

theorem noNull_iff : m.NoNull ↔ ∀ entry ∈ m.connections, entry.2.isSome := by
  unfold NoNull sessions
  induction m.connections with
  | nil => simp
  | cons entry entries ih =>
      rw [List.forall_mem_cons, ← ih, List.mapM_cons]
      cases entry.2 with
      | none => simp
      | some connection =>
          cases entries.mapM Prod.snd with
          | none => simp
          | some connections => simp

theorem createSession_cases (m : ConnectionManager) (numId : ℤ) :
    ((m.createSession numId).connections = m.connections ∧
        (m.createSession numId).orderConnectionName = m.orderConnectionName) ∨
      ∃ connection : Connection,
        (m.createSession numId).connections =
          OrderedMap.emplace nameLt m.connections (connection.settings.name, some connection) := by
  unfold createSession
  dsimp only
  split
  next => exact .inl ⟨rfl, rfl⟩
  next creator _ =>
    refine .inr ⟨⟨creator, (m.settingsCollection numId).getD {}⟩, ?_⟩
    split
    next => rfl
    next => rfl

theorem orderConnection_found {entry : String × Option Connection}
    (found : m.find m.orderConnectionName = some entry) : m.orderConnection = (entry.2, m) := by
  rw [orderConnection, found]

theorem orderConnection_missing (missing : m.find m.orderConnectionName = none) :
    m.orderConnection = (none, { m with
      connections := OrderedMap.emplace nameLt m.connections (m.orderConnectionName, none) }) := by
  rw [orderConnection, missing]

theorem step_keeps (m : ConnectionManager) (call : Call) {entry : String × Option Connection}
    (member : entry ∈ m.connections) : entry ∈ (m.step call).connections := by
  cases call with
  | createSession numId =>
      rcases m.createSession_cases numId with ⟨same, -⟩ | ⟨connection, added⟩
      · exact same ▸ member
      · exact added ▸ OrderedMap.mem_emplace_of_mem member
  | connect => exact member
  | disconnect => exact member
  | orderConnection =>
      show entry ∈ m.orderConnection.2.connections
      cases found : m.find m.orderConnectionName with
      | some other => rwa [orderConnection_found found]
      | none =>
          rw [orderConnection_missing found]
          exact OrderedMap.mem_emplace_of_mem member

theorem noNull_back (m : ConnectionManager) (call : Call) (later : (m.step call).NoNull) :
    m.NoNull := by
  rw [noNull_iff] at later ⊢
  intro entry member
  exact later entry (m.step_keeps call member)

theorem step_noNull (m : ConnectionManager) (call : Call) (noNull : m.NoNull)
    (guarded : m.Guarded call) : (m.step call).NoNull := by
  cases call with
  | createSession numId =>
      rw [noNull_iff] at noNull ⊢
      intro entry member
      rcases m.createSession_cases numId with ⟨same, -⟩ | ⟨connection, added⟩
      · exact noNull entry (same ▸ member)
      · rcases OrderedMap.mem_of_mem_emplace (added ▸ member) with rfl | old
        · rfl
        · exact noNull entry old
  | connect => exact noNull
  | disconnect => exact noNull
  | orderConnection =>
      obtain ⟨entry, found⟩ := Option.isSome_iff_exists.mp guarded
      show m.orderConnection.2.NoNull
      rwa [orderConnection_found found]

theorem null_of_unnamed (m : ConnectionManager) (call : Call) (unguarded : ¬ m.Guarded call) :
    ¬ (m.step call).NoNull := by
  cases call with
  | createSession numId => exact absurd trivial unguarded
  | connect => exact absurd trivial unguarded
  | disconnect => exact absurd trivial unguarded
  | orderConnection =>
      have missing : m.find m.orderConnectionName = none := Option.not_isSome_iff_eq_none.mp unguarded
      show ¬ m.orderConnection.2.NoNull
      intro noNull
      rw [orderConnection_missing missing] at noNull
      have null := noNull_iff.mp noNull _ (OrderedMap.mem_emplace_of_missing missing)
      cases null

theorem safe_iff_guarded (noNull : m.NoNull) (calls : List Call) :
    Along step Safe m (calls ++ [.disconnect]) ↔ Along step Guarded m calls := by
  have allowed : Along step (fun (_ : ConnectionManager) (_ : Call) => True) m calls :=
    along_of_each (fun _ _ => trivial) m calls
  have exact : Always step NoNull m calls ↔ Along step Guarded m calls :=
    always_iff_along (fun m call _ => m.step_noNull call) (fun _ noNull => noNull)
      (fun m call _ _ => m.null_of_unnamed call) noNull allowed
  rw [← exact]
  constructor
  · intro safe
    exact always_of_last noNull_back (along_append.mp safe).2.1
  · intro always
    refine along_append.mpr ⟨always.along fun m call noNull => ?_, always.last, trivial⟩
    cases call with
    | createSession numId => trivial
    | connect => exact noNull
    | disconnect => exact noNull
    | orderConnection => trivial

/-! ## The sessions that are created -/

def created (collection : SettingsCollection) (order : List ℤ) : List Connection :=
  order.filterMap fun numId => (collection numId).bind fun settings =>
    (findConnectionCreator settings.schema).map (⟨·, settings⟩)

def createdRest (collection : SettingsCollection) (order : List ℤ) : List Connection :=
  (created collection order).filter fun connection => connection.ofClass.isRest

def entry (connection : Connection) : String × Option Connection :=
  (connection.settings.name, some connection)

theorem isRest_iff {schema : String} {creator : ConnectionClass}
    (found : findConnectionCreator schema = some creator) :
    (contains ":ORD" schema && !contains ":ORDWS" schema) = creator.isRest := by
  obtain ⟨before, after, table, -⟩ := List.lookup_eq_some_iff.mp found
  have member : (schema, creator) ∈ connectionsFactory := by
    rw [table]
    exact List.mem_append_right before List.mem_cons_self
  have all : ∀ registered ∈ connectionsFactory,
      (contains ":ORD" registered.1 && !contains ":ORDWS" registered.1) = registered.2.isRest := by
    decide +kernel
  exact all _ member

section Created
variable {numId : ℤ} {settings : Settings} {creator : ConnectionClass}

theorem createSession_unsupported (known : m.settingsCollection numId = some settings)
    (missing : findConnectionCreator settings.schema = none) :
    ∃ lastError, m.createSession numId = { m with lastError } := by
  have same : Function.update m.settingsCollection numId (some settings) = m.settingsCollection := by
    rw [← known, Function.update_eq_self]
  rw [createSession, known, Option.getD_some, missing]
  dsimp only
  rw [same]
  exact ⟨_, rfl⟩

theorem createSession_supported (known : m.settingsCollection numId = some settings)
    (found : findConnectionCreator settings.schema = some creator) :
    m.createSession numId = { m with
      connections := OrderedMap.emplace nameLt m.connections (entry ⟨creator, settings⟩)
      orderConnectionName := if creator.isRest then settings.name else m.orderConnectionName } := by
  have same : Function.update m.settingsCollection numId (some settings) = m.settingsCollection := by
    rw [← known, Function.update_eq_self]
  rw [createSession, known, Option.getD_some, found]
  dsimp only
  rw [same, isRest_iff found]
  split
  next => rfl
  next => rfl

theorem foldl_createSession (order : List ℤ) (m : ConnectionManager)
    (known : ∀ numId ∈ order, (m.settingsCollection numId).isSome) :
    (order.foldl createSession m).connections =
        ((created m.settingsCollection order).map entry).foldl (OrderedMap.emplace nameLt)
          m.connections ∧
      (order.foldl createSession m).orderConnectionName =
        ((createdRest m.settingsCollection order).getLast?.map (·.settings.name)).getD
          m.orderConnectionName := by
  induction order generalizing m with
  | nil => exact ⟨rfl, rfl⟩
  | cons numId order ih =>
      obtain ⟨first, rest⟩ := List.forall_mem_cons.mp known
      obtain ⟨settings, first⟩ := Option.isSome_iff_exists.mp first
      rw [List.foldl_cons]
      cases found : findConnectionCreator settings.schema with
      | none =>
          obtain ⟨lastError, same⟩ := createSession_unsupported first found
          have skipped : created m.settingsCollection (numId :: order) =
              created m.settingsCollection order :=
            List.filterMap_cons_none (by rw [first, Option.bind_some, found, Option.map_none])
          rw [same, createdRest, skipped]
          exact ih { m with lastError } rest
      | some creator =>
          have added : created m.settingsCollection (numId :: order) =
              ⟨creator, settings⟩ :: created m.settingsCollection order :=
            List.filterMap_cons_some (by rw [first, Option.bind_some, found, Option.map_some])
          rw [createSession_supported first found, createdRest, added, List.map_cons,
            List.foldl_cons, List.filter_cons]
          obtain ⟨connections, name⟩ := ih { m with
            connections := OrderedMap.emplace nameLt m.connections (entry ⟨creator, settings⟩)
            orderConnectionName := if creator.isRest then settings.name
              else m.orderConnectionName } rest
          refine ⟨connections, name.trans ?_⟩
          dsimp only
          cases creator.isRest with
          | false => rfl
          | true =>
              rw [if_pos rfl, if_pos rfl, List.getLast?_cons, ← createdRest]
              cases (createdRest m.settingsCollection order).getLast? with
              | none => rfl
              | some last => rfl

end Created

theorem mem_created {collection : SettingsCollection} {order : List ℤ} {connection : Connection} :
    connection ∈ created collection order ↔ ∃ numId ∈ order,
      collection numId = some connection.settings ∧
        findConnectionCreator connection.settings.schema = some connection.ofClass := by
  rw [created, List.mem_filterMap]
  refine exists_congr fun numId => and_congr_right fun _ => ?_
  rw [Option.bind_eq_some_iff]
  constructor
  · rintro ⟨settings, known, made⟩
    obtain ⟨creator, found, rfl⟩ := Option.map_eq_some_iff.mp made
    exact ⟨known, found⟩
  · rintro ⟨known, found⟩
    exact ⟨connection.settings, known, Option.map_eq_some_iff.mpr ⟨_, found, rfl⟩⟩

/-! ## Looking the order connection up -/

theorem nameLt_trans (a b c : String) (below : nameLt a b = true) (above : nameLt b c = true) :
    nameLt a c = true :=
  decide_eq_true (lt_trans (of_decide_eq_true below) (of_decide_eq_true above))

theorem nameLt_irrefl (a : String) : nameLt a a = false := decide_eq_false (lt_irrefl a)

theorem names_comparable : (Set.univ : Set String).Pairwise (OrderedMap.Comparable nameLt) := by
  intro a _ b _ differ
  rcases lt_or_gt_of_ne differ with below | above
  · exact .inl (decide_eq_true below)
  · exact .inr (decide_eq_true above)

section Lookup
variable {collection : SettingsCollection} {order : List ℤ}
  (known : ∀ numId ∈ order, (collection numId).isSome)
include known

theorem find_create (name : String) : (create collection order).find name =
    ((created collection order).map entry).find? fun entry => entry.1 = name := by
  rw [find, create, (foldl_createSession order { settingsCollection := collection } known).1,
    OrderedMap.find_foldl_emplace nameLt_trans nameLt_irrefl names_comparable
      (fun _ member => absurd member List.not_mem_nil) List.Pairwise.nil
      (fun _ _ => Set.mem_univ _) (Set.mem_univ name)]
  rfl

theorem orderConnectionName_create : (create collection order).orderConnectionName =
    ((createdRest collection order).getLast?.map (·.settings.name)).getD "" :=
  (foldl_createSession order { settingsCollection := collection } known).2

theorem noNull_create : (create collection order).NoNull := by
  rw [noNull_iff, create, (foldl_createSession order { settingsCollection := collection } known).1]
  refine List.foldlRecOn (motive := fun connections : List (String × Option Connection) =>
    ∀ entry ∈ connections, entry.2.isSome) _ _ (fun _ member => absurd member List.not_mem_nil) ?_
  intro connections all added member entry inside
  obtain ⟨connection, -, rfl⟩ := List.mem_map.mp member
  rcases OrderedMap.mem_of_mem_emplace inside with rfl | old
  · rfl
  · exact all entry old

theorem sorted_create : OrderedMap.Sorted nameLt (create collection order).connections := by
  rw [create, (foldl_createSession order { settingsCollection := collection } known).1]
  refine List.foldlRecOn (motive := OrderedMap.Sorted nameLt) _ _ List.Pairwise.nil ?_
  intro connections sorted added _
  exact sorted.emplace nameLt_trans added

theorem named_create_iff : (create collection order).Named ↔
    ∃ connection ∈ created collection order,
      connection.ofClass.isRest = true ∨ connection.settings.name = "" := by
  rw [Named, find_create known, List.find?_isSome, orderConnectionName_create known]
  constructor
  · rintro ⟨_, member, same⟩
    obtain ⟨connection, inside, rfl⟩ := List.mem_map.mp member
    cases last : (createdRest collection order).getLast? with
    | some rest =>
        obtain ⟨inside, traded⟩ := List.mem_filter.mp (List.mem_of_getLast? last)
        exact ⟨rest, inside, .inl traded⟩
    | none =>
        rw [last] at same
        exact ⟨connection, inside, .inr (of_decide_eq_true same)⟩
  · rintro ⟨connection, inside, either⟩
    cases last : (createdRest collection order).getLast? with
    | some rest =>
        obtain ⟨inside, -⟩ := List.mem_filter.mp (List.mem_of_getLast? last)
        exact ⟨entry rest, List.mem_map_of_mem inside, decide_eq_true rfl⟩
    | none =>
        rcases either with traded | unnamed
        · have empty := List.getLast?_eq_none_iff.mp last
          have inside' : connection ∈ createdRest collection order :=
            List.mem_filter.mpr ⟨inside, traded⟩
          rw [empty] at inside'
          cases inside'
        · exact ⟨entry connection, List.mem_map_of_mem inside, decide_eq_true unnamed⟩

theorem orderConnection_create
    (named : ∀ connection ∈ created collection order, connection.settings.name ≠ "")
    (distinct : ∀ connection ∈ created collection order, ∀ other ∈ created collection order,
      connection.settings.name = other.settings.name → connection = other) :
    (create collection order).orderConnection.1 = (createdRest collection order).getLast? := by
  have found := find_create known (create collection order).orderConnectionName
  rw [orderConnectionName_create known] at found
  cases last : (createdRest collection order).getLast? with
  | none =>
      rw [last] at found
      have missing : (create collection order).find
          (create collection order).orderConnectionName = none := by
        rw [orderConnectionName_create known, last]
        refine found.trans (List.find?_eq_none.mpr fun _ member unnamed => ?_)
        obtain ⟨connection, inside, rfl⟩ := List.mem_map.mp member
        exact named connection inside (of_decide_eq_true unnamed)
      rw [orderConnection_missing missing]
  | some rest =>
      rw [last] at found
      obtain ⟨inside, -⟩ := List.mem_filter.mp (List.mem_of_getLast? last)
      have first : ((created collection order).map entry).find?
          (fun entry => entry.1 = rest.settings.name) = some (entry rest) := by
        obtain ⟨other, present⟩ := Option.isSome_iff_exists.mp (List.find?_isSome
          (p := fun entry : String × Option Connection => entry.1 = rest.settings.name).mpr
            ⟨entry rest, List.mem_map_of_mem inside, decide_eq_true rfl⟩)
        obtain ⟨connection, inside', rfl⟩ := List.mem_map.mp (List.mem_of_find?_eq_some present)
        have matched := List.find?_some present
        have name : connection.settings.name = rest.settings.name := of_decide_eq_true matched
        rw [present, distinct connection inside' rest inside name]
      have there : (create collection order).find
          (create collection order).orderConnectionName = some (entry rest) := by
        rw [orderConnectionName_create known, last]
        exact found.trans first
      rw [orderConnection_found there]
      rfl

end Lookup

def Call.Reads : Call → Prop
  | .createSession _ => False
  | .connect | .disconnect | .orderConnection => True

theorem guarded_iff_of_reads {calls : List Call} (reads : ∀ call ∈ calls, call.Reads) :
    Along step Guarded m calls ↔ (.orderConnection ∈ calls → m.Named) := by
  induction calls with
  | nil => exact ⟨fun _ member => absurd member List.not_mem_nil, fun _ => trivial⟩
  | cons call calls ih =>
      obtain ⟨first, rest⟩ := List.forall_mem_cons.mp reads
      have ih := ih rest
      cases call with
      | createSession numId => exact first.elim
      | connect => simpa [Along, Guarded, step] using ih
      | disconnect => simpa [Along, Guarded, step] using ih
      | orderConnection =>
          constructor
          · intro along _
            exact along.1
          · intro named
            have here := named List.mem_cons_self
            obtain ⟨entry, found⟩ := Option.isSome_iff_exists.mp here
            refine ⟨here, ?_⟩
            show Along step Guarded m.orderConnection.2 calls
            rw [orderConnection_found found]
            exact ih.mpr fun _ => here

theorem orderConnection_again (sorted : OrderedMap.Sorted nameLt m.connections) :
    m.orderConnection.2.orderConnection = m.orderConnection := by
  cases found : m.find m.orderConnectionName with
  | some entry => rw [orderConnection_found found, orderConnection_found found]
  | none =>
      have entered : m.orderConnection.2.find m.orderConnection.2.orderConnectionName =
          some (m.orderConnectionName, none) := by
        rw [orderConnection_missing found]
        dsimp only [find]
        rw [OrderedMap.find_emplace nameLt_trans nameLt_irrefl names_comparable
          (fun _ _ => Set.mem_univ _) sorted (Set.mem_univ _) (Set.mem_univ _), ← find, found,
          Option.none_or, if_pos rfl]
      rw [orderConnection_found entered, orderConnection_missing found]

theorem always_orderConnection (sorted : OrderedMap.Sorted nameLt m.connections)
    {calls : List Call} (reads : ∀ call ∈ calls, call.Reads) :
    Always step (fun s => s.orderConnection.1 = m.orderConnection.1) m calls := by
  have again := orderConnection_again sorted
  have keep : ∀ (s : ConnectionManager) (call : Call), call.Reads →
      s = m ∨ s = m.orderConnection.2 → s.step call = m ∨ s.step call = m.orderConnection.2 := by
    intro s call reads either
    cases call with
    | createSession numId => exact reads.elim
    | connect => exact either
    | disconnect => exact either
    | orderConnection =>
        rcases either with rfl | rfl
        · exact .inr rfl
        · exact .inr (congrArg Prod.snd again)
  have invariant := always_of_invariant keep (.inl rfl) (along_of_forall reads m)
  refine invariant.mono fun s either => ?_
  rcases either with rfl | rfl
  · rfl
  · exact congrArg Prod.fst again

/-! ## What the configuration decides -/

def Kept (children : List SessionNode) (settings : Settings) : Prop :=
  ∃ before after, sessionSettings children = before ++ settings :: after ∧
    ∀ later ∈ after, later.numId ≠ settings.numId

structure Enumerates (order : List ℤ) (collection : SettingsCollection) : Prop where
  distinct : order.Nodup
  keys : ∀ numId, numId ∈ order ↔ (collection numId).isSome

section Configuration
variable {children : List SessionNode} {numId : ℤ} {settings : Settings}

theorem loadConfig_eq : (loadConfig (some children)).2 numId =
    (sessionSettings children).reverse.find? fun settings => settings.numId = numId := by
  show (sessionSettings children).foldl _ (fun _ => none) numId = _
  rw [Keyed.foldl_update]
  cases (sessionSettings children).reverse.find? fun settings => settings.numId = numId <;> rfl

theorem loadConfig_isSome_iff : ((loadConfig (some children)).2 numId).isSome ↔
    numId ∈ (sessionSettings children).map (·.numId) := by
  rw [loadConfig_eq, List.find?_isSome, List.mem_map]
  simp

theorem loadConfig_eq_some_iff : (loadConfig (some children)).2 numId = some settings ↔
    Kept children settings ∧ settings.numId = numId := by
  rw [loadConfig_eq, List.find?_eq_some_iff_append]
  constructor
  · rintro ⟨same, after, before, split, others⟩
    obtain rfl : settings.numId = numId := of_decide_eq_true same
    refine ⟨⟨before.reverse, after.reverse, ?_, fun later member => ?_⟩, rfl⟩
    · rw [← List.reverse_reverse (sessionSettings children), split]
      simp
    · simpa using others later (List.mem_reverse.mp member)
  · rintro ⟨⟨before, after, split, others⟩, rfl⟩
    refine ⟨decide_eq_true rfl, after.reverse, before.reverse, ?_, fun later member => ?_⟩
    · rw [split]
      simp
    · simpa using others later (List.mem_reverse.mp member)

theorem enumerates_of_read {order : List ℤ} (distinct : order.Nodup)
    (read : (sessionSettings children).map (·.numId) = order) :
    Enumerates order (loadConfig (some children)).2 :=
  ⟨distinct, fun numId => by rw [loadConfig_isSome_iff, read]⟩

variable {order : List ℤ}

theorem mem_created_iff (enumerates : Enumerates order (loadConfig (some children)).2)
    {connection : Connection} : connection ∈ created (loadConfig (some children)).2 order ↔
      Kept children connection.settings ∧
        findConnectionCreator connection.settings.schema = some connection.ofClass := by
  rw [mem_created]
  constructor
  · rintro ⟨numId, -, known, found⟩
    exact ⟨(loadConfig_eq_some_iff.mp known).1, found⟩
  · rintro ⟨kept, found⟩
    have known := loadConfig_eq_some_iff.mpr ⟨kept, rfl⟩
    exact ⟨_, (enumerates.keys _).mpr (Option.isSome_of_mem known), known, found⟩

/-- The sessions can be disconnected in the end if and only if the order connection is not asked
for or some session trades over REST, or has no name. -/
theorem disconnected_iff (enumerates : Enumerates order (loadConfig (some children)).2)
    {calls : List Call} (reads : ∀ call ∈ calls, call.Reads) :
    Along step Safe (create (loadConfig (some children)).2 order) (calls ++ [.disconnect]) ↔
      (.orderConnection ∈ calls → ∃ settings creator, Kept children settings ∧
        findConnectionCreator settings.schema = some creator ∧
        (creator.isRest = true ∨ settings.name = "")) := by
  have known : ∀ numId ∈ order, ((loadConfig (some children)).2 numId).isSome :=
    fun numId => (enumerates.keys numId).mp
  rw [safe_iff_guarded (noNull_create known), guarded_iff_of_reads reads, named_create_iff known]
  refine imp_congr_right fun _ => ?_
  constructor
  · rintro ⟨connection, member, either⟩
    obtain ⟨kept, found⟩ := (mem_created_iff enumerates).mp member
    exact ⟨_, _, kept, found, either⟩
  · rintro ⟨settings, creator, kept, found, either⟩
    exact ⟨⟨creator, settings⟩, (mem_created_iff enumerates).mpr ⟨kept, found⟩, either⟩

/-- Where the sessions have names of their own, one of them that trades over REST is the order
connection all the time, or there is none. -/
theorem orderConnection_trades (enumerates : Enumerates order (loadConfig (some children)).2)
    (named : ∀ settings, Kept children settings → settings.name ≠ "")
    (distinct : ∀ settings other, Kept children settings → Kept children other →
      settings.name = other.name → settings = other)
    {calls : List Call} (reads : ∀ call ∈ calls, call.Reads) :
    ∃ session : Option Connection,
      Always step (fun s => s.orderConnection.1 = session)
        (create (loadConfig (some children)).2 order) calls ∧
      (∀ connection ∈ session, Kept children connection.settings ∧
        findConnectionCreator connection.settings.schema = some connection.ofClass ∧
        connection.ofClass.isRest = true) ∧
      (session = none → ∀ settings creator, Kept children settings →
        findConnectionCreator settings.schema = some creator → creator.isRest = false) := by
  have known : ∀ numId ∈ order, ((loadConfig (some children)).2 numId).isSome :=
    fun numId => (enumerates.keys numId).mp
  have asked := orderConnection_create known
    (fun connection member => named _ ((mem_created_iff enumerates).mp member).1)
    (fun connection member other member' same => ?_)
  · refine ⟨_, asked ▸ always_orderConnection (sorted_create known) reads, ?_, ?_⟩
    · intro connection last
      obtain ⟨inside, rest⟩ := List.mem_filter.mp (List.mem_of_getLast? last)
      obtain ⟨kept, found⟩ := (mem_created_iff enumerates).mp inside
      exact ⟨kept, found, rest⟩
    · intro none settings creator kept found
      have inside : ⟨creator, settings⟩ ∈ created (loadConfig (some children)).2 order :=
        (mem_created_iff enumerates).mpr ⟨kept, found⟩
      have absent := List.filter_eq_nil_iff.mp (List.getLast?_eq_none_iff.mp none) _ inside
      exact Bool.eq_false_of_not_eq_true absent
  · obtain ⟨ofClass, settings⟩ := connection
    obtain ⟨ofClass', settings'⟩ := other
    obtain ⟨kept, found⟩ := (mem_created_iff enumerates).mp member
    obtain ⟨kept', found'⟩ := (mem_created_iff enumerates).mp member'
    obtain rfl : settings = settings' := distinct _ _ kept kept' same
    obtain rfl : ofClass = ofClass' := Option.some.inj (found.symm.trans found')
    rfl

end Configuration

theorem Kept.mem {children : List SessionNode} {settings : Settings}
    (kept : Kept children settings) : settings ∈ sessionSettings children := by
  obtain ⟨before, after, split, -⟩ := kept
  rw [split]
  exact List.mem_append_right before List.mem_cons_self

def marketDataNode : SessionNode where
  nodeType := .element
  attributes := [("name", "COINBASEMD"), ("num_id", "3"), ("host", "advanced-trade-ws.coinbase.com"),
    ("port", "443"), ("channels", "level2"), ("schema", "Coinbase:MD"), ("instruments", "BTC/USDC")]

def webSocketNode : SessionNode where
  nodeType := .element
  attributes := [("name", "COINBASEORD"), ("num_id", "4"), ("protocol", "ws"),
    ("host", "advanced-trade-ws.coinbase.com"), ("port", "443"), ("schema", "Coinbase:ORD")]

def restNode : SessionNode where
  nodeType := .element
  attributes := [("name", "COINBASEORD"), ("num_id", "4"), ("protocol", "rest"),
    ("orders_http", "https://api.coinbase.com/api/v3/brokerage/"), ("port", "443"),
    ("passphrase", ""), ("schema", "Coinbase:ORD")]

def orderMonitorNode : SessionNode where
  nodeType := .element
  attributes := [("name", "COINBASEORD_WS"), ("num_id", "5"), ("protocol", "ws"),
    ("host", "advanced-trade-ws.coinbase.com"), ("port", "443"), ("passphrase", ""),
    ("schema", "Coinbase:ORDWS")]

theorem disconnected_iff_webSocket : ¬ Along step Safe
    (create (loadConfig (some [marketDataNode, webSocketNode])).2 [3, 4])
    [.connect, .orderConnection, .disconnect] := by
  intro safe
  have enumerates : Enumerates [3, 4] (loadConfig (some [marketDataNode, webSocketNode])).2 :=
    enumerates_of_read (by decide) (by decide +kernel)
  have reads : ∀ call ∈ [Call.connect, .orderConnection], call.Reads := by simp [Call.Reads]
  obtain ⟨settings, creator, kept, found, either⟩ :=
    (disconnected_iff enumerates reads).mp safe (by simp)
  have none : ∀ settings ∈ sessionSettings [marketDataNode, webSocketNode],
      (findConnectionCreator settings.schema).all (fun creator => !creator.isRest) = true ∧
        settings.name ≠ "" := by
    decide +kernel
  obtain ⟨apart, named⟩ := none settings kept.mem
  rcases either with traded | unnamed
  · rw [found] at apart
    simp [traded] at apart
  · exact named unnamed

theorem orderConnection_trades_rest :
    ∃ connection : Connection, connection.settings.name = "COINBASEORD" ∧
      Always step (fun s => s.orderConnection.1 = some connection)
        (create (loadConfig (some [marketDataNode, restNode, orderMonitorNode])).2 [3, 4, 5])
        [.connect, .orderConnection, .disconnect] := by
  have distinctNames : ∀ settings ∈ sessionSettings [marketDataNode, restNode, orderMonitorNode],
      ∀ other ∈ sessionSettings [marketDataNode, restNode, orderMonitorNode],
        settings.name = other.name → settings = other := by
    decide +kernel
  have names : ∀ settings ∈ sessionSettings [marketDataNode, restNode, orderMonitorNode],
      settings.name ≠ "" ∧ ((findConnectionCreator settings.schema).any (·.isRest) = true →
        settings.name = "COINBASEORD") := by
    decide +kernel
  have enumerates : Enumerates [3, 4, 5]
      (loadConfig (some [marketDataNode, restNode, orderMonitorNode])).2 :=
    enumerates_of_read (by decide) (by decide +kernel)
  have reads : ∀ call ∈ [Call.connect, .orderConnection, .disconnect], call.Reads := by
    simp [Call.Reads]
  obtain ⟨session, always, one, none⟩ := orderConnection_trades enumerates
    (fun settings kept => (names settings kept.mem).1)
    (fun settings other kept kept' => distinctNames settings kept.mem other kept'.mem) reads
  cases session with
  | none =>
      have kept := loadConfig_eq_some_iff.mp
        (show (loadConfig (some [marketDataNode, restNode, orderMonitorNode])).2 4 =
          some (readSettings restNode) by decide +kernel)
      have untraded := none rfl _ .coinbaseORD kept.1 (by decide +kernel)
      cases untraded
  | some connection =>
      obtain ⟨kept, found, rest⟩ := one connection rfl
      refine ⟨connection, (names _ kept.mem).2 ?_, always⟩
      rw [found]
      exact rest

end ConnectionManager
end SpotGridBot.Core
