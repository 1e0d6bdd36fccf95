import Lending.Context
import Lending.Tree.Node
import Lending.Warning

/-! The branch that a node chooses for a context.

A value that is there is matched against the declared branches; where none matches, the first
catch-all branch is taken, and without one the label `Other`. A missing value follows the
node's own rule: the declared null branch comes first everywhere. -/
namespace Lending

/-- How a branch was chosen. -/
inductive Selection where
  /-- The observed value matched a declared branch. -/
  | matched
  /-- The value was missing and a null branch is declared. -/
  | nullBranch
  /-- The value was missing and no null branch is declared. -/
  | nullFallback
  /-- No branch matched and a catch-all branch is declared. -/
  | catchAll
  /-- No branch matched and no catch-all branch is declared. -/
  | other
  deriving DecidableEq, Repr

def Selection.name : Selection → String
  | .matched => "matched"
  | .nullBranch => "null_branch"
  | .nullFallback => "null_fallback"
  | .catchAll => "catch_all"
  | .other => "other"

/-- One decision on a route. -/
structure PathStep where
  nodeKey : String
  conditionType : ConditionType
  /-- The attributes read, separated by commas. -/
  field : Option String
  /-- The observed value; of a compound condition, whether it holds. -/
  actual : Value
  branch : String
  selection : Selection

namespace Branching

/-! ### Choices among branches -/

/-- Where no branch matches. -/
def unmatched (branches : List Branch) : String × Selection :=
  match branches.find? Branch.isCatchAll with
  | some b => (b.label, .catchAll)
  | none => (otherLabel, .other)

/-- A branch named for all other values. -/
def isOther (b : Branch) : Bool :=
  Text.keyword b.label == "other"

/-- Where the value is missing: the null branch, else the first branch named `other`, else the
first branch. -/
def missing (branches : List Branch) (nullBranch : Option String) : String × Selection :=
  match nullBranch with
  | some label => (label, .nullBranch)
  | none =>
    match branches.find? isOther <|> branches.head? with
    | some b => (b.label, .nullFallback)
    | none => (otherLabel, .nullFallback)

/-- Where a score is missing: the null branch, else `Other`. -/
def missingScore (nullBranch : Option String) : String × Selection :=
  match nullBranch with
  | some label => (label, .nullBranch)
  | none => (otherLabel, .nullFallback)

/-- The first branch for true, the second for false. -/
def twoWay (branches : List Branch) (result : Bool) : String × Selection :=
  match branches[if result then 0 else 1]? with
  | some b => (b.label, .matched)
  | none => (otherLabel, .matched)

/-- Whether one of the branch's values matches; of an array, whether one of its items does. -/
def takes (actual : Value) (b : Branch) : Bool :=
  b.values.any fun v =>
    match actual with
    | .array items => items.any (·.agrees v)
    | actual => actual.agrees v

/-- The first branch one of whose values matches. -/
def categoryChoice (branches : List Branch) (actual : Value) : String × Selection :=
  match branches.find? (takes actual) with
  | some b => (b.label, .matched)
  | none => unmatched branches

/-- The first band that holds the number. -/
def bandChoice (branches : List Branch) (actual : Value) : String × Selection :=
  match actual.number?.bind fun x => branches.find? (·.contains x) with
  | some b => (b.label, .matched)
  | none => unmatched branches

/-! ### Comparisons that fail closed -/

/-- A comparison as a node sees it: a malformed threshold does not hold. -/
def holds (actual : Value) (op : Operator) (expected : Value) : Bool :=
  match actual.compareValue op expected with
  | .ok b => b
  | .error _ => false

/-- The fault of a malformed threshold. -/
def fault? (actual : Value) (op : Operator) (expected : Value) : Option Threshold.Malformed :=
  match actual.compareValue op expected with
  | .ok _ => none
  | .error m => some m

/-- What a binary condition compares with. -/
def comparison? (spec : ConditionSpec) : Option (Operator × Value) :=
  match spec.operator, spec.branches.head?.bind Branch.threshold with
  | some op, some v => some (op, v)
  | _, _ => none

def binaryChoice (spec : ConditionSpec) (actual : Value) : String × Selection :=
  twoWay spec.branches ((comparison? spec).any fun c => holds actual c.1 c.2)

/-- The value under a name; null if the context has no such attribute. -/
def observed (ctx : Context) (field : String) : Value :=
  (ctx.lookup field).getD .null

/-- A clause about a missing value does not hold. -/
def clauseHolds (ctx : Context) (c : Clause) : Bool :=
  let actual := observed ctx c.field
  !actual.isMissing && holds actual c.operator c.value

/-- A compound condition with a null branch goes there as soon as one value is missing. -/
def missingClause (ctx : Context) (spec : ConditionSpec) : Option String :=
  if spec.clauses.any fun c => (observed ctx c.field).isMissing then spec.nullBranch else none

end Branching

open Branching in
/-- The decision of a compound condition. -/
def ConditionSpec.compoundStep (spec : ConditionSpec) (key : String) (ctx : Context) : PathStep :=
  let field := some (Text.joined "," (spec.clauses.map Clause.field))
  match missingClause ctx spec with
  | some label => ⟨key, .compound, field, .null, label, .nullBranch⟩
  | none =>
    let result := spec.logic.combine (spec.clauses.map (clauseHolds ctx))
    let choice := twoWay spec.branches result
    ⟨key, .compound, field, .flag result, choice.1, choice.2⟩

open Branching in
/-- The decision of a scorecard gate. -/
def gateStep (key field : String) (branches : List Branch) (nullBranch : Option String)
    (ctx : Context) : PathStep :=
  let actual := observed ctx field
  let choice := if actual.isMissing then missingScore nullBranch else bandChoice branches actual
  ⟨key, .scorecardGate, some field, actual, choice.1, choice.2⟩

open Branching in
/-- The decision of a condition node. -/
def ConditionSpec.step (spec : ConditionSpec) (key : String) (ctx : Context) : PathStep :=
  let field := spec.field.getD ""
  match spec.type with
  | .compound => spec.compoundStep key ctx
  | .scorecardGate => gateStep key field spec.branches spec.nullBranch ctx
  | type =>
    let actual := observed ctx field
    let choice :=
      if actual.isMissing then missing spec.branches spec.nullBranch
      else
        match type with
        | .binary => binaryChoice spec actual
        | .categorical => categoryChoice spec.branches actual
        | _ => bandChoice spec.branches actual
    ⟨key, type, some field, actual, choice.1, choice.2⟩

/-- The decision of a branching node; other nodes decide nothing. -/
def Node.step? (n : Node) (ctx : Context) : Option PathStep :=
  match n.kind with
  | .condition spec => some (spec.step n.key ctx)
  | .gate field branches nullBranch => some (gateStep n.key field branches nullBranch ctx)
  | _ => none

/-! ### Warnings -/

namespace Branching

/-- The faults of the clauses that are looked at: a clause that settles the result is the last. -/
def clauseFaults (ctx : Context) (logic : Logic) : List Clause → List Threshold.Malformed
  | [] => []
  | c :: rest =>
    let actual := observed ctx c.field
    let faults := if actual.isMissing then [] else (fault? actual c.operator c.value).toList
    let settled := match logic with
      | .and => !clauseHolds ctx c
      | .or => clauseHolds ctx c
    faults ++ if settled then [] else clauseFaults ctx logic rest

end Branching

open Branching in
/-- The malformed thresholds that a node comes upon for a context. -/
def Node.warnings (n : Node) (ctx : Context) : List Warning :=
  match n.kind with
  | .condition spec =>
    match spec.type with
    | .binary =>
      let actual := observed ctx (spec.field.getD "")
      if actual.isMissing then []
      else ((comparison? spec).bind fun c => fault? actual c.1 c.2).toList.map (.falseBranch n.key)
    | .compound =>
      if (missingClause ctx spec).isSome then []
      else (clauseFaults ctx spec.logic spec.clauses).map (.falseCondition n.key)
    | _ => []
  | _ => []

end Lending
