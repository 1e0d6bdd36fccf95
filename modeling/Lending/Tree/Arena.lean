import Lending.Context
import Lending.PolicyError
import Lending.Tree.Node
import Lending.Warning

/-! Decision trees: lists of nodes that are checked once, so that routing meets no surprise.

A tree is built from a list in which keys are unique, every parent exists, one root stands
out, no parent links run in a circle and each node is sound in itself. A node is known by its
key, and its children are the nodes that name it as their parent, in the order of the list. -/
namespace Lending

structure Tree where
  nodes : List Node
  root : Node
  /-- The strategy for branches without a child. -/
  defaultStrategy : Option String

namespace Tree

/-! ### Links -/

def nodeOf? (nodes : List Node) (key : String) : Option Node :=
  nodes.find? (·.key == key)

def childrenOf (nodes : List Node) (key : String) : List Node :=
  nodes.filter (·.parent == some key)

def parentOf? (nodes : List Node) (n : Node) : Option Node :=
  n.parent.bind (nodeOf? nodes)

def node? (t : Tree) (key : String) : Option Node :=
  nodeOf? t.nodes key

def children (t : Tree) (key : String) : List Node :=
  childrenOf t.nodes key

/-- The child under a label: the first that carries exactly the label, else the first whose
label differs only in case and outer blanks. -/
def childFor (t : Tree) (key label : String) : Option Node :=
  (t.children key).find? (fun n => n.label == some label) <|>
    (t.children key).find? fun n => n.label.any fun l => Text.keyword l == Text.keyword label

/-! ### The root -/

/-- The only candidate, if there is one. -/
def onlyRoot (candidates : List Node) : Except PolicyError Node :=
  match candidates with
  | [root] => .ok root
  | [] => .error .noRoot
  | _ => .error (.multipleRoots (candidates.map Node.key))

/-- The flagged node, or, when none is flagged, the node without a parent. -/
def findRoot (nodes : List Node) : Except PolicyError Node :=
  match nodes.filter Node.isRoot with
  | [] => onlyRoot (nodes.filter (·.parent.isNone))
  | flagged => onlyRoot flagged

/-! ### Circles -/

/-- Follows parent links from a node and marks the keys on the way, up to a node that is marked
already. The key of a node that the chain meets twice is an error. -/
def markChain (nodes : List Node) (marked : List String) : Nat → List String → Node →
    Except String (List String)
  | 0, _, n => .error n.key
  | fuel + 1, chain, n =>
    if n.key ∈ marked then .ok (chain ++ marked)
    else if n.key ∈ chain then .error n.key
    else
      match parentOf? nodes n with
      | none => .ok (n.key :: chain ++ marked)
      | some parent => markChain nodes marked fuel (n.key :: chain) parent

/-- Marks every node; the longest chain without a circle holds each node once. -/
def markAll (nodes : List Node) : Except String (List String) :=
  nodes.foldlM (fun marked n => markChain nodes marked (nodes.length + 1) [] n) []

/-! ### Each node on its own -/

def requireField (key field : String) : Except PolicyError Unit :=
  if (Attribute.ofName? field : Option ContextField).isSome then .ok ()
  else .error (.unknownAttribute key field)

/-- The attribute of a condition that reads one. -/
def requireOwnField (key : String) (spec : ConditionSpec) : Except PolicyError Unit :=
  match spec.field with
  | none => .error (.invalidNode key (.missingAttribute spec.type.name))
  | some field => requireField key field

def require (ok : Bool) (e : PolicyError) : Except PolicyError Unit :=
  if ok then .ok () else .error e

def checkCondition (key : String) (spec : ConditionSpec) : Except PolicyError Unit :=
  match spec.type with
  | .binary => do
    requireOwnField key spec
    require spec.operator.isSome (.invalidNode key .missingOperator)
    require (spec.branches.length == 2) (.invalidNode key .binaryBranches)
    require (spec.branches.head?.any (·.threshold.isSome)) (.invalidNode key .binaryThreshold)
  | .compound => do
    require (!spec.clauses.isEmpty) (.invalidNode key .noConditions)
    spec.clauses.forM fun c => requireField key c.field
    require (spec.branches.length == 2) (.invalidNode key .compoundBranches)
  | type => do
    requireOwnField key spec
    require (!spec.branches.isEmpty) (.invalidNode key (.noBranches type.name))

/-- Every declared branch has a child, unless the tree has a default strategy. -/
def checkBranches (t : Tree) (key : String) (branches : List Branch) : Except PolicyError Unit :=
  if t.defaultStrategy.isSome then .ok ()
  else
    match branches.find? fun b => (t.childFor key b.label).isNone with
    | some b => .error (.danglingBranch key b.label)
    | none => .ok ()

/-- A terminal names what it ends at and has no children. -/
def checkTerminal (t : Tree) (key target : String) : Except PolicyError Unit := do
  require (!Text.isBlankText target) (.invalidTerminal key .missingReference)
  require (t.children key).isEmpty (.invalidTerminal key .hasChildren)

def checkNode (t : Tree) (n : Node) : Except PolicyError Unit :=
  match n.kind with
  | .condition spec => do
    checkCondition n.key spec
    t.checkBranches n.key spec.branches
  | .gate field branches _ => do
    requireField n.key field
    require (!branches.isEmpty) (.invalidNode n.key .gateWithoutBranches)
    t.checkBranches n.key branches
  | .strategy id _ => t.checkTerminal n.key id
  | .assessment id => t.checkTerminal n.key id
  | .note _ =>
    require ((t.children n.key).length == 1) (.invalidNode n.key .annotationChildren)

/-! ### Building -/

/-- The first node whose parent is not in the list. -/
def orphan? (nodes : List Node) : Option PolicyError :=
  nodes.findSome? fun n =>
    match n.parent with
    | none => none
    | some parent =>
      if (nodeOf? nodes parent).isSome then none else some (.unknownParent n.key parent)

def requireKeys (nodes : List Node) : Except PolicyError Unit :=
  match Text.firstRepeat? [] (nodes.map Node.key) with
  | some key => .error (.duplicateNode key)
  | none => .ok ()

def requireParents (nodes : List Node) : Except PolicyError Unit :=
  match orphan? nodes with
  | some e => .error e
  | none => .ok ()

/-- Builds and checks a tree. A blank default strategy is none. -/
def build (nodes : List Node) (defaultStrategy : Option String) : Except PolicyError Tree := do
  require (!nodes.isEmpty) .emptyTree
  requireKeys nodes
  requireParents nodes
  let root ← findRoot nodes
  let _ ← (markAll nodes).mapError .cycle
  let t : Tree := ⟨nodes, root, defaultStrategy.filter (!Text.isBlankText ·)⟩
  nodes.forM t.checkNode
  return t

/-! ### What the root does not reach -/

/-- Visits nodes breadth first, each node once. -/
def visit (t : Tree) : Nat → List Node → List String → List String
  | 0, _, seen => seen
  | _, [], seen => seen
  | fuel + 1, n :: queue, seen =>
    if n.key ∈ seen then visit t fuel queue seen
    else
      let seen := n.key :: seen
      visit t fuel (queue ++ (t.children n.key).filter (·.key ∉ seen)) seen

/-- The keys of the nodes that the root reaches. The root and every child enter the queue once. -/
def reached (t : Tree) : List String :=
  t.visit (t.nodes.length + 2) [t.root] []

def unreachable (t : Tree) : List Node :=
  t.nodes.filter (·.key ∉ t.reached)

def warnings (t : Tree) : List Warning :=
  t.unreachable.map fun n => .unreachable n.key

/-- Building with its warnings. -/
def buildNoted (nodes : List Node) (defaultStrategy : Option String) : Noted PolicyError Tree := do
  let t ← Noted.ofExcept (build nodes defaultStrategy)
  Noted.warn t.warnings
  return t

/-! ### References -/

/-- The strategies that terminals and the default name, each once and in order. -/
def strategyRefs (t : Tree) : List String :=
  Dict.sortedKeys (t.nodes.filterMap Node.strategyRef? ++ t.defaultStrategy.toList)

/-- The assessments that terminals name, each once and in order. -/
def assessmentRefs (t : Tree) : List String :=
  Dict.sortedKeys (t.nodes.filterMap Node.assessmentRef?)

/-- Every reference is known. -/
def checkReferences (t : Tree) (hasStrategy hasAssessment : String → Bool) :
    Except PolicyError Unit :=
  match t.strategyRefs.find? (!hasStrategy ·), t.assessmentRefs.find? (!hasAssessment ·) with
  | some id, _ => .error (.unknownStrategy id)
  | none, some id => .error (.unknownAssessment id)
  | none, none => .ok ()

end Tree

end Lending
