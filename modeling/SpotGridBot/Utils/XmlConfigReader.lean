import SpotGridBot.Lib.Forest

/-!
# Paths in an XML document

`XmlConfigReader::NodePtrs` goes down a path with one remembered node: the last element that carried
a component, whichever component that was. The elements before it are not followed, and where a
component is missing the search goes on among the children of the node that is still remembered.
-/

namespace SpotGridBot.Utils.XmlConfigReader
open Forest

inductive NodeType where
  | element | text | cdataSection | entityReference | processingInstruction | comment | documentType
deriving DecidableEq, Repr

/-- `Poco::XML::Node` without its relatives; a pointer to it is its address. -/
structure NodeData where
  address : Nat
  nodeType : NodeType
  nodeName : String
deriving DecidableEq, Repr

abbrev Node := RoseTree NodeData

def carries (name : String) (node : NodeData) : Bool :=
  node.nodeType = .element ∧ node.nodeName = name

structure Document where
  childNodes : List Node
  distinct : ((preorder childNodes).map fun node => node.label.address).Nodup
  named : ∀ node ∈ preorder childNodes, node.label.nodeName ≠ ""

def splitInput (input : String) : List String :=
  (input.toList.splitOn '/').map String.ofList

def scan (name : String) (final : Bool) : List Node → Option Node → List Node →
    Option Node × List Node
  | [], newNode, result => (newNode, result)
  | workNode :: siblings, newNode, result =>
      if carries name workNode.label then
        scan name final siblings (some workNode) (if final then result ++ [workNode] else result)
      else scan name final siblings newNode result

def firstChild (newNode : Option Node) : List Node := newNode.elim [] RoseTree.children

def search : List String → List Node → Option Node → List Node → List Node
  | [], _, _, result => result
  | name :: components, workNode, newNode, result =>
      let scanned := scan name components.isEmpty workNode newNode result
      search components (firstChild scanned.1) scanned.1 scanned.2

def nodePtrs (document : Option Document) (newBase : String) (base : Option (Node × List Node)) :
    List Node :=
  if newBase.isEmpty then []
  else
    match base, document with
    | some (base, siblings), _ =>
        search (splitInput newBase) (if base.children.isEmpty then siblings else base.children)
          none []
    | none, some document => search (splitInput newBase) document.childNodes none []
    | none, none => []

def nodePtr (document : Option Document) (newBase : String) (base : Option (Node × List Node)) :
    Option Node :=
  match nodePtrs document newBase base with
  | [node] => some node
  | _ => none

theorem scan_eq (name : String) (final : Bool) (nodes : List Node) (newNode : Option Node)
    (result : List Node) :
    scan name final nodes newNode result =
      ((carrying carries name nodes).getLast?.or newNode,
        if final then result ++ carrying carries name nodes else result) := by
  induction nodes generalizing newNode result with
  | nil => simp [scan, carrying]
  | cons workNode siblings ih =>
      unfold scan
      split
      next here =>
        rw [ih, carrying_cons_of_pos here]
        congr 1
        · cases later : (carrying carries name siblings).getLast? <;>
            simp [List.getLast?_cons, later]
        · cases final <;> simp
      next other => rw [ih, carrying_cons_of_neg other]

def descend (name : String) (nodes : List Node) : List Node :=
  (carrying carries name nodes).getLast?.elim nodes RoseTree.children

def pursue : List String → List Node → List Node
  | [], _ => []
  | [name], nodes => carrying carries name nodes
  | name :: name' :: components, nodes => pursue (name' :: components) (descend name nodes)

theorem search_eq (components : List String) (newNode : Option Node) (result : List Node) :
    search components (firstChild newNode) newNode result =
      result ++ pursue components (firstChild newNode) := by
  induction components generalizing newNode result with
  | nil => simp [search, pursue]
  | cons name components ih =>
      unfold search
      rw [scan_eq]
      dsimp only
      cases components with
      | nil => simp [search, pursue]
      | cons name' components =>
          have next :
              firstChild ((carrying carries name (firstChild newNode)).getLast?.or newNode) =
                descend name (firstChild newNode) := by
            unfold descend
            cases (carrying carries name (firstChild newNode)).getLast? <;> rfl
          rw [ih, next]
          rfl

theorem search_found {name : String} {components : List String} {nodes : List Node}
    (found : carrying carries name nodes ≠ []) :
    search (name :: components) nodes none [] = pursue (name :: components) nodes := by
  unfold search
  rw [scan_eq]
  dsimp only
  cases components with
  | nil => simp [search, pursue]
  | cons name' components =>
      have next : firstChild ((carrying carries name nodes).getLast?.or none) =
          descend name nodes := by
        unfold descend
        rw [List.getLast?_eq_some_getLast found]
        rfl
      rw [search_eq, next]
      rfl

theorem pursue_nil (components : List String) : pursue components [] = [] := by
  induction components with
  | nil => rfl
  | cons name components ih =>
      cases components with
      | nil => rfl
      | cons name' components => exact ih

theorem search_missing {name : String} {components : List String} {nodes : List Node}
    (missing : carrying carries name nodes = []) :
    search (name :: components) nodes none [] = [] := by
  unfold search
  rw [scan_eq, missing]
  dsimp only
  rw [List.getLast?_nil, Option.or_none, search_eq]
  change _ ++ pursue components [] = []
  rw [pursue_nil, List.append_nil, List.append_nil, ite_self]

theorem mem_pursue {components : List String} {nodes : List Node} {node : Node}
    (member : node ∈ pursue components nodes) : node ∈ preorder nodes := by
  induction components generalizing nodes with
  | nil => cases member
  | cons name components ih =>
      cases components with
      | nil => exact (carrying_sublist name nodes).subset member
      | cons name' components =>
          have below := ih member
          unfold descend at below
          cases last : (carrying carries name nodes).getLast? with
          | none => rwa [last] at below
          | some parent =>
              rw [last] at below
              have child := (mem_carrying.mp (List.mem_of_getLast? last)).1
              rw [preorder_eq_flatMap]
              exact List.mem_flatMap.mpr ⟨parent, child, mem_preorder_of_child below⟩

/-- Past the names that are not there, and into the last element of each name that is there, the
components lead to an element of the last name. -/
def Strays : List String → List Node → Prop
  | [], _ => False
  | [name], nodes => ∃ node ∈ nodes, carries name node.label = true
  | name :: name' :: components, nodes => Strays (name' :: components) (descend name nodes)

def Direct : List String → List Node → Prop
  | [], _ => True
  | [_], _ => True
  | name :: name' :: components, nodes =>
      match (carrying carries name nodes).getLast? with
      | none => ¬ Strays (name' :: components) nodes
      | some last =>
          (∀ other ∈ (carrying carries name nodes).dropLast, ∀ node,
            ¬ Reached carries (name' :: components) other.children node) ∧
          Direct (name' :: components) last.children

theorem strays_iff {components : List String} {nodes : List Node} :
    Strays components nodes ↔ pursue components nodes ≠ [] := by
  induction components generalizing nodes with
  | nil => simp [Strays, pursue]
  | cons name components ih =>
      cases components with
      | nil =>
          unfold Strays pursue
          constructor
          · rintro ⟨node, member, here⟩
            exact List.ne_nil_of_mem (mem_carrying.mpr ⟨member, here⟩)
          · intro some
            obtain ⟨node, member⟩ := List.exists_mem_of_ne_nil _ some
            exact ⟨node, mem_carrying.mp member⟩
      | cons name' components => exact ih

theorem follow_eq_nil_iff {components : List String} {nodes : List Node} :
    follow carries components nodes = [] ↔ ∀ node, ¬ Reached carries components nodes node := by
  simp only [List.eq_nil_iff_forall_not_mem, mem_follow]

theorem pursue_eq_follow_iff {components : List String} {nodes : List Node}
    (distinct : (preorder nodes).Nodup) :
    pursue components nodes = follow carries components nodes ↔ Direct components nodes := by
  induction components generalizing nodes with
  | nil => simp [pursue, follow, Direct]
  | cons name components ih =>
      cases components with
      | nil => simp [pursue, follow, Direct]
      | cons name' components =>
          unfold pursue follow Direct descend
          cases found : (carrying carries name nodes).getLast? with
          | none =>
              rw [List.getLast?_eq_none_iff.mp found, List.flatMap_nil]
              exact (not_iff_comm.mp strays_iff.symm).symm
          | some last =>
              obtain ⟨others, split⟩ := List.getLast?_eq_some_iff.mp found
              have child : last ∈ nodes := (mem_carrying.mp (List.mem_of_getLast? found)).1
              have apart : ∀ other ∈ others, other.preorder.Disjoint last.preorder := by
                have pairs := (disjoint_of_nodup distinct).sublist
                  (List.filter_sublist (p := fun node => carries name node.label))
                rw [← carrying, split, List.pairwise_append] at pairs
                exact fun other member => pairs.2.2 other member last (List.mem_singleton_self last)
              rw [split, List.dropLast_concat, List.flatMap_append, List.flatMap_singleton,
                Option.elim_some]
              dsimp only
              rw [← ih (nodup_children distinct child)]
              constructor
              · intro same
                have nowhere : (others.flatMap fun other =>
                    follow carries (name' :: components) other.children) = [] := by
                  by_contra reached
                  obtain ⟨node, member⟩ := List.exists_mem_of_ne_nil _ reached
                  obtain ⟨other, isOther, below⟩ := List.mem_flatMap.mp member
                  have pursued : node ∈ pursue (name' :: components) last.children := by
                    rw [same]
                    exact List.mem_append_left _ member
                  exact apart other isOther
                    (mem_preorder_of_child ((follow_sublist _ _).subset below))
                    (mem_preorder_of_child (mem_pursue pursued))
                rw [nowhere, List.nil_append] at same
                exact ⟨fun other member =>
                  follow_eq_nil_iff.mp (List.flatMap_eq_nil_iff.mp nowhere other member), same⟩
              · rintro ⟨nowhere, same⟩
                have empty := List.flatMap_eq_nil_iff.mpr fun other member =>
                  follow_eq_nil_iff.mpr (nowhere other member)
                rw [empty, List.nil_append, same]

namespace Document
variable (document : Document)

def Reaches (path : String) (node : Node) : Prop :=
  Reached carries (splitInput path) document.childNodes node

structure Exact (path : String) : Prop where
  reached : ∀ node, node ∈ nodePtrs (some document) path none ↔ document.Reaches path node
  ordered : (nodePtrs (some document) path none).Sublist (preorder document.childNodes)
  single : ∀ node, nodePtr (some document) path none = some node ↔
    ∀ node', document.Reaches path node' ↔ node' = node

def Followed : List String → Prop
  | [] => True
  | name :: components =>
      (∃ node ∈ document.childNodes, carries name node.label = true) →
        Direct (name :: components) document.childNodes

theorem nodup : (preorder document.childNodes).Nodup := document.distinct.of_map _

theorem nodePtrs_eq_follow_iff (path : String) :
    nodePtrs (some document) path none =
        follow carries (splitInput path) document.childNodes ↔
      document.Followed (splitInput path) := by
  unfold nodePtrs
  by_cases empty : path.isEmpty = true
  · obtain rfl : path = "" := String.isEmpty_iff.mp empty
    have components : splitInput "" = [""] := by decide
    have unnamed : carrying carries "" document.childNodes = [] := by
      refine List.filter_eq_nil_iff.mpr fun node member here => ?_
      have nameless : node.label.nodeType = .element ∧ node.label.nodeName = "" := by
        simpa [carries] using here
      exact document.named node (mem_preorder member) nameless.2
    rw [if_pos empty, components, follow_of_missing unnamed]
    exact iff_of_true rfl fun _ => trivial
  · rw [if_neg empty]
    dsimp only
    cases splitInput path with
    | nil => exact iff_of_true rfl trivial
    | cons name components =>
        by_cases missing : carrying carries name document.childNodes = []
        · rw [search_missing missing, follow_of_missing missing]
          refine iff_of_true rfl ?_
          rintro ⟨node, member, here⟩
          have found := mem_carrying.mpr ⟨member, here⟩
          rw [missing] at found
          cases found
        · rw [search_found missing, pursue_eq_follow_iff document.nodup]
          obtain ⟨node, member⟩ := List.exists_mem_of_ne_nil _ missing
          exact ⟨fun direct _ => direct, fun followed => followed ⟨node, mem_carrying.mp member⟩⟩

theorem nodePtr_eq_some_iff {path : String} {node : Node} :
    nodePtr (some document) path none = some node ↔
      nodePtrs (some document) path none = [node] := by
  unfold nodePtr
  split
  next node' single => simp [single]
  next several => simpa using several node

theorem exact_iff (path : String) :
    document.Exact path ↔
      nodePtrs (some document) path none =
        follow carries (splitInput path) document.childNodes := by
  have sub : (follow carries (splitInput path) document.childNodes).Sublist
      (preorder document.childNodes) := follow_sublist _ _
  constructor
  · intro exact
    exact eq_of_sublist document.nodup exact.ordered sub fun node =>
      (exact.reached node).trans mem_follow.symm
  · intro same
    have reached : ∀ node, node ∈ nodePtrs (some document) path none ↔
        document.Reaches path node := by
      intro node
      rw [same]
      exact mem_follow
    refine ⟨reached, by rwa [same], fun node => ?_⟩
    rw [nodePtr_eq_some_iff]
    constructor
    · intro single node'
      rw [← reached, single, List.mem_singleton]
    · intro alone
      have member := (reached node).mpr ((alone node).mpr rfl)
      rw [same] at member ⊢
      refine eq_of_sublist document.nodup sub (List.singleton_sublist.mpr (sub.subset member)) ?_
      intro node'
      rw [List.mem_singleton, ← alone]
      exact mem_follow

/-- The path is followed exactly if and only if no element of a repeated name but the last leads
on, and no name that is missing is passed over with success. -/
theorem nodePtrs_exact_iff (path : String) :
    document.Exact path ↔ document.Followed (splitInput path) :=
  (document.exact_iff path).trans (document.nodePtrs_eq_follow_iff path)

def gridConfig : Document where
  childNodes := [.node ⟨1, .element, "config"⟩
    [.node ⟨2, .element, "grid"⟩ [], .node ⟨3, .element, "hedge"⟩ []]]
  distinct := by decide
  named := by decide

theorem missing_component_passed :
    ¬ ∀ (document : Document) (path : String), document.Exact path := by
  intro exact
  have found : RoseTree.node ⟨2, .element, "grid"⟩ [] ∈
      nodePtrs (some gridConfig) "config/limits/grid" none := by
    have result : nodePtrs (some gridConfig) "config/limits/grid" none =
      [.node ⟨2, .element, "grid"⟩ []] := by rfl
    rw [result]
    exact List.mem_singleton_self _
  have reached := mem_follow.mpr (((exact gridConfig "config/limits/grid").reached _).mp found)
  cases reached

/-- Of two elements of a name only the last is followed. -/
example : nodePtrs (some ⟨[.node ⟨1, .element, "config"⟩
    [.node ⟨2, .element, "pair"⟩ [.node ⟨3, .element, "grid"⟩ []], .node ⟨4, .element, "pair"⟩ []]],
    by decide, by decide⟩) "config/pair/grid" none = [] := by
  rfl

end Document
end SpotGridBot.Utils.XmlConfigReader
