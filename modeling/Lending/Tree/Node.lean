import Lending.Threshold

/-! Nodes of a decision tree, as policies list them.

The nodes of a tree are a flat list. Each names its parent and the parent's branch that leads
to it. Conditions and scorecard gates branch, strategies and assessments end a route, and
annotations are passed through. -/
namespace Lending

/-- A declared branch of a node. -/
structure Branch where
  label : String
  /-- The values that a categorical node sends this way. -/
  values : List Value
  /-- The lower end of a numeric band, which belongs to it. -/
  min : Option Float
  /-- The upper end of a numeric band, which does not. -/
  max : Option Float
  /-- What a binary node compares with; read from its first branch. -/
  threshold : Option Value

/-- Labels of branches that take in what no other branch does. -/
def isCatchAllLabel (label : String) : Bool :=
  ["other", "all_others", "catch_all"].contains (Text.keyword label)

/-- The label that stands in where no branch is declared for a value. -/
def otherLabel : String :=
  "Other"

namespace Branch

def ofLabel (label : String) : Branch :=
  ⟨label, [], none, none, none⟩

def isCatchAll (b : Branch) : Bool :=
  isCatchAllLabel b.label

/-- Whether a number lies in the branch's band. A branch without ends is no band. -/
def contains (b : Branch) (x : Float) : Bool :=
  (b.min.isSome || b.max.isSome) && b.min.all (fun low => decide (low ≤ x)) &&
    b.max.all (fun high => decide (x < high))

end Branch

/-- One comparison of a compound condition. -/
structure Clause where
  field : String
  operator : Operator
  value : Value

inductive ConditionType where
  | binary
  | categorical
  | numericRange
  | compound
  | scorecardGate
  deriving DecidableEq, Repr

def ConditionType.all : List ConditionType :=
  [.binary, .categorical, .numericRange, .compound, .scorecardGate]

def ConditionType.name : ConditionType → String
  | .binary => "binary"
  | .categorical => "categorical"
  | .numericRange => "numeric_range"
  | .compound => "compound"
  | .scorecardGate => "scorecard_gate"

/-- What a condition node asks. -/
structure ConditionSpec where
  type : ConditionType
  /-- The attribute read; a compound condition names its own. -/
  field : Option String
  /-- The operator of a binary condition. -/
  operator : Option Operator
  branches : List Branch
  clauses : List Clause
  logic : Logic
  /-- The branch taken when the attribute is missing. -/
  nullBranch : Option String

inductive NodeKind where
  | condition (spec : ConditionSpec)
  /-- Numeric bands over a score. -/
  | gate (field : String) (branches : List Branch) (nullBranch : Option String)
  /-- Ends the route at a strategy, to which it hands parameters. -/
  | strategy (id : String) (params : Dict Value)
  /-- Ends the route at an assessment. -/
  | assessment (id : String)
  /-- Passed through to its only child. -/
  | note (text : Option String)

structure Node where
  key : String
  name : Option String
  parent : Option String
  /-- The parent's branch that leads here. -/
  label : Option String
  isRoot : Bool
  kind : NodeKind

namespace ConditionSpec

def ofType (type : ConditionType) (field : Option String) (branches : List Branch) : ConditionSpec :=
  ⟨type, field, none, branches, [], .and, none⟩

/-- A split in two by one comparison. -/
def binary (field : String) (operator : Operator) (threshold : Value) (yes no : String) :
    ConditionSpec :=
  { ofType .binary (some field)
      [{ Branch.ofLabel yes with threshold := some threshold }, .ofLabel no] with
    operator := some operator }

def categorical (field : String) (branches : List Branch) : ConditionSpec :=
  ofType .categorical (some field) branches

def numericRange (field : String) (branches : List Branch) : ConditionSpec :=
  ofType .numericRange (some field) branches

/-- A split in two by several comparisons. -/
def compound (logic : Logic) (clauses : List Clause) (yes no : String) : ConditionSpec :=
  { ofType .compound none [.ofLabel yes, .ofLabel no] with logic := logic, clauses := clauses }

end ConditionSpec

namespace Node

def ofKind (key : String) (kind : NodeKind) : Node :=
  ⟨key, none, none, none, false, kind⟩

/-- Adds a parameter to a strategy node. -/
def withParam (n : Node) (name : String) (v : Value) : Node :=
  match n.kind with
  | .strategy id params => { n with kind := .strategy id (params.insert name v) }
  | _ => n

/-- Declares the branch for missing values on a branching node. -/
def withNullBranch (n : Node) (label : String) : Node :=
  match n.kind with
  | .condition spec => { n with kind := .condition { spec with nullBranch := some label } }
  | .gate field branches _ => { n with kind := .gate field branches (some label) }
  | _ => n

/-- Ends a route. -/
def isTerminal (n : Node) : Bool :=
  match n.kind with
  | .strategy _ _ | .assessment _ => true
  | _ => false

/-- The strategy that a terminal names. -/
def strategyRef? (n : Node) : Option String :=
  match n.kind with
  | .strategy id _ => some id
  | _ => none

/-- The assessment that a terminal names. -/
def assessmentRef? (n : Node) : Option String :=
  match n.kind with
  | .assessment id => some id
  | _ => none

/-- The declared branches of a branching node. -/
def branches (n : Node) : List Branch :=
  match n.kind with
  | .condition spec => spec.branches
  | .gate _ branches _ => branches
  | _ => []

end Node

end Lending
