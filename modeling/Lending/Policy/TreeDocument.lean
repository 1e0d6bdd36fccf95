import Lending.Policy.RuleDocument
import Lending.Tree.Node

/-! Trees as policy documents write them. A document's nodes are read one by one; whether they
make a tree is checked when the tree is built. -/
namespace Lending

/-! ### Branches -/

namespace Branch

/-- The values of a branch: a list of them under `values`, or a single one. -/
def readValues (d : Document) : List Value :=
  match d.get? "values" with
  | some (.sequence items) => items.map Document.toValue
  | some single => [single.toValue]
  | none => ((d.get? "value").map Document.toValue).toList

/-- A branch; a bare label is a branch without values. -/
def read (d : Document) : Except ReadError Branch :=
  match d.text? with
  | some label => .ok (.ofLabel label)
  | none => do
    let label ← d.requiredText "label"
    let min ← d.optionalNumber "min"
    let max ← d.optionalNumber "max"
    return ⟨label, readValues d, min, max, (d.get? "threshold").map Document.toValue⟩

def readList (d : Document) : Except ReadError (List Branch) :=
  ((d.optionalItems "branches").getD []).mapM read

end Branch

def Clause.read (d : Document) : Except ReadError Clause := do
  let field ← d.requiredText "attribute"
  let operator ← Operator.read (← d.requiredText "operator")
  match d.get? "value" with
  | some v => return ⟨field, operator, v.toValue⟩
  | none => throw (.missingMember "value")

/-! ### Nodes -/

namespace NodeKind

def readGate (d : Document) : Except ReadError NodeKind := do
  let field ← d.requiredText "attribute"
  let branches ← Branch.readList d
  return .gate field branches (d.optionalText "null_branch")

/-- A condition of a type that is not a scorecard gate's. -/
def readSpec (type : ConditionType) (d : Document) : Except ReadError NodeKind := do
  let operator ← d.optionalWord Operator.read "operator"
  let logic ← Logic.read d "compound_logic"
  let clauses ← ((d.optionalItems "compound_conditions").getD []).mapM Clause.read
  let branches ← Branch.readList d
  return .condition
    { type := type
      field := d.optionalText "attribute"
      operator := operator
      branches := branches
      clauses := clauses
      logic := logic
      nullBranch := d.optionalText "null_branch" }

/-- A condition. A scorecard gate that is written as a condition is a gate like any other. -/
def readCondition (key : String) (d : Document) : Except ReadError NodeKind := do
  let type ← d.requiredText "condition_type"
  match ConditionType.all.find? (·.name == type) with
  | some .scorecardGate => readGate d
  | some type => readSpec type d
  | none => throw (.invalidMember "condition_type" (.unknownConditionType type key))

/-- The type of a node; a node with a condition type needs none of its own. -/
def typeName (d : Document) : String :=
  (d.optionalText "type").getD (if (d.get? "condition_type").isSome then "condition" else "")

def read (key : String) (d : Document) : Except ReadError NodeKind :=
  match typeName d with
  | "condition" => readCondition key d
  | "scorecard_gate" => readGate d
  | "strategy" => do
    let id ← d.requiredText "strategy_id"
    let params ← d.optionalValues "params"
    return .strategy id params
  | "assessment" => do
    let id ← d.requiredText "assessment_id"
    return .assessment id
  | "annotation" => return .note (d.optionalText "note")
  | "" => throw (.missingMember "type")
  | other => throw (.invalidMember "type" (.unknownNodeType other key))

end NodeKind

namespace Node

def knownMembers : List String :=
  ["key", "node_key", "name", "parent", "parent_node_id", "branch", "branch_label", "is_root", "type",
    "condition_type", "attribute", "operator", "branches", "compound_conditions", "compound_logic",
    "null_branch", "strategy_id", "params", "assessment_id", "note"]

/-- A text under the first of two names that has one. -/
def eitherText (d : Document) (short long : String) : Option String :=
  d.optionalText short <|> d.optionalText long

def readBody (key : String) (d : Document) : Except ReadError Node := do
  let kind ← NodeKind.read key d
  let isRoot ← d.optionalFlag "is_root"
  return {
    key := key
    name := d.optionalText "name"
    parent := eitherText d "parent" "parent_node_id"
    label := eitherText d "branch" "branch_label"
    isRoot := isRoot.getD false
    kind := kind }

def read (d : Document) : Noted ReadError Node :=
  match eitherText d "key" "node_key" with
  | none => Noted.fail (.missingMember "key")
  | some key => do
    Noted.warn (d.unknownMembers knownMembers s!"node '{key}'")
    readBody key d

end Node

/-! ### Trees -/

/-- The nodes of a tree that is not built yet. -/
structure TreeDraft where
  id : String
  name : Option String
  version : UInt32
  /-- The strategy for branches without a child. -/
  defaultStrategy : Option String
  nodes : List Node

namespace TreeDraft

def knownMembers : List String :=
  ["id", "name", "version", "default_strategy", "nodes"]

def read (d : Document) : Noted ReadError TreeDraft := do
  let id ← d.requiredText "id"
  Noted.warn (d.unknownMembers knownMembers s!"tree '{id}'")
  let nodes ← Noted.forEach Node.read ((d.optionalItems "nodes").getD [])
  let version ← d.optionalCount "version"
  return {
    id := id
    name := d.optionalText "name"
    version := version.getD 1
    defaultStrategy := d.optionalText "default_strategy"
    nodes := nodes }

end TreeDraft

end Lending
