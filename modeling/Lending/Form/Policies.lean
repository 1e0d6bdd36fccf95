import Lending.Form.Rules
import Lending.Policy.Bundle

/-! The forms of trees, strategies, assessments and bundles. A node's kind has no member of its
own: its members stand among the node's. -/
namespace Lending

def ConditionType.form (t : ConditionType) : Document :=
  .text t.name

def ConditionType.ofTaggedForm? (d : Document) : Option ConditionType :=
  Form.taggedName? ConditionType.all ConditionType.name d

def Decision.form (o : Decision) : Document :=
  .text o.name

def Decision.ofForm? (d : Document) : Option Decision :=
  Form.name? Decision.all Decision.name d

def Mode.form (m : Mode) : Document :=
  .text m.name

def Mode.ofForm? (d : Document) : Option Mode :=
  Form.name? Mode.all Mode.name d

/-! ### Branches and clauses -/

namespace Branch

def form (b : Branch) : Document :=
  .record <|
    [("label", .text b.label)] ++
      Form.unlessEmpty "values" (Form.ofList Document.ofValue) b.values ++
      Form.optional "min" .real b.min ++
      Form.optional "max" .real b.max ++
      Form.optional "threshold" .ofValue b.threshold

def ofForm? (d : Document) : Option Branch := do
  let m ← Form.members? ["label", "values", "min", "max", "threshold"] d
  let label ← m.required Form.text? "label"
  let values ← m.orElse (Form.list? Value.ofForm?) "values" []
  let min ← m.optional Form.number? "min"
  let max ← m.optional Form.number? "max"
  let threshold ← m.optional Value.ofForm? "threshold"
  return ⟨label, values, min, max, threshold⟩

end Branch

namespace Clause

def form (c : Clause) : Document :=
  .record [("attribute", .text c.field), ("operator", c.operator.form), ("value", .ofValue c.value)]

def ofForm? (d : Document) : Option Clause := do
  let m ← Form.members? ["attribute", "operator", "value"] d
  let field ← m.required Form.text? "attribute"
  let operator ← m.required Operator.ofTaggedForm? "operator"
  let v ← m.required Value.ofForm? "value"
  return ⟨field, operator, v⟩

end Clause

/-! ### Nodes -/

namespace ConditionSpec

def fields (s : ConditionSpec) : List (String × Document) :=
  [("condition_type", s.type.form)] ++
    Form.optional "attribute" .text s.field ++
    Form.optional "operator" Operator.form s.operator ++
    [("branches", Form.ofList Branch.form s.branches)] ++
    Form.unlessEmpty "compound_conditions" (Form.ofList Clause.form) s.clauses ++
    [("compound_logic", s.logic.form)] ++
    Form.optional "null_branch" .text s.nullBranch

def names : List String :=
  ["condition_type", "attribute", "operator", "branches", "compound_conditions", "compound_logic",
    "null_branch"]

def ofForm? (d : Document) : Option ConditionSpec := do
  let m ← Form.members? names d
  let type ← m.required ConditionType.ofTaggedForm? "condition_type"
  let field ← m.optional Form.text? "attribute"
  let operator ← m.optional Operator.ofTaggedForm? "operator"
  let branches ← m.orElse (Form.list? Branch.ofForm?) "branches" []
  let clauses ← m.orElse (Form.list? Clause.ofForm?) "compound_conditions" []
  let logic ← m.orElse Logic.ofTaggedForm? "compound_logic" .and
  let nullBranch ← m.optional Form.text? "null_branch"
  return ⟨type, field, operator, branches, clauses, logic, nullBranch⟩

end ConditionSpec

namespace NodeKind

/-- The names of the kinds, in order. -/
def typeNames : List String :=
  ["condition", "scorecard_gate", "strategy", "assessment", "annotation"]

def fields : NodeKind → List (String × Document)
  | .condition spec => ("type", .text "condition") :: spec.fields
  | .gate field branches nullBranch =>
    [("type", .text "scorecard_gate"), ("attribute", .text field),
      ("branches", Form.ofList Branch.form branches)] ++ Form.optional "null_branch" .text nullBranch
  | .strategy id params =>
    [("type", .text "strategy"), ("strategy_id", .text id)] ++
      Form.unlessEmpty "params" (Form.ofDict Document.ofValue) params
  | .assessment id => [("type", .text "assessment"), ("assessment_id", .text id)]
  | .note text => ("type", .text "annotation") :: Form.optional "note" .text text

/-- The kind that a tag names, by its name or by its place among the names. -/
def tagName? : Document → Option String
  | .text s => some s
  | .integer n => if 0 ≤ n then typeNames[n.toNat]? else none
  | _ => none

def gateOfForm? (d : Document) : Option NodeKind := do
  let m ← Form.members? ["attribute", "branches", "null_branch"] d
  let field ← m.required Form.text? "attribute"
  let branches ← m.required (Form.list? Branch.ofForm?) "branches"
  let nullBranch ← m.optional Form.text? "null_branch"
  return .gate field branches nullBranch

def strategyOfForm? (d : Document) : Option NodeKind := do
  let m ← Form.members? ["strategy_id", "params"] d
  let id ← m.required Form.text? "strategy_id"
  let params ← m.orElse (Form.dict? Value.ofForm?) "params" []
  return .strategy id params

def assessmentOfForm? (d : Document) : Option NodeKind := do
  let m ← Form.members? ["assessment_id"] d
  let id ← m.required Form.text? "assessment_id"
  return .assessment id

def noteOfForm? (d : Document) : Option NodeKind := do
  let m ← Form.members? ["note"] d
  let text ← m.optional Form.text? "note"
  return .note text

/-- Reads the members of a kind among the members of a node. -/
def ofForm? (d : Document) : Option NodeKind := do
  let t ← Form.tagged? "type" d
  match ← tagName? t.tag with
  | "condition" => (ConditionSpec.ofForm? t.rest).map .condition
  | "scorecard_gate" => gateOfForm? t.rest
  | "strategy" => strategyOfForm? t.rest
  | "assessment" => assessmentOfForm? t.rest
  | "annotation" => noteOfForm? t.rest
  | _ => none

end NodeKind

namespace Node

def form (n : Node) : Document :=
  .record <|
    [("node_key", .text n.key)] ++
      Form.optional "name" .text n.name ++
      Form.optional "parent_node_id" .text n.parent ++
      Form.optional "branch_label" .text n.label ++
      [("is_root", .flag n.isRoot)] ++ n.kind.fields

def names : List String :=
  ["node_key", "name", "parent_node_id", "branch_label", "is_root"]

/-- What is left of a node's members for its kind. -/
def kindMembers (members : List (Document × Document)) : Document :=
  .mapping (members.filter fun m => !names.any fun name => Form.text? m.1 == some name)

/-- A node is read from a mapping only. -/
def ofForm? (d : Document) : Option Node :=
  match d with
  | .mapping members => do
    let m ← Form.members? names d
    let key ← m.required Form.text? "node_key"
    let name ← m.optional Form.text? "name"
    let parent ← m.optional Form.text? "parent_node_id"
    let label ← m.optional Form.text? "branch_label"
    let isRoot ← m.orElse Form.flag? "is_root" false
    let kind ← NodeKind.ofForm? (kindMembers members)
    return ⟨key, name, parent, label, isRoot, kind⟩
  | _ => none

end Node

namespace TreeDraft

def form (t : TreeDraft) : Document :=
  .record <|
    [("id", .text t.id)] ++
      Form.optional "name" .text t.name ++
      [("version", Form.ofCount t.version)] ++
      Form.optional "default_strategy" .text t.defaultStrategy ++
      [("nodes", Form.ofList Node.form t.nodes)]

def ofForm? (d : Document) : Option TreeDraft := do
  let m ← Form.members? ["id", "name", "version", "default_strategy", "nodes"] d
  let id ← m.required Form.text? "id"
  let name ← m.optional Form.text? "name"
  let version ← m.required Form.count? "version"
  let defaultStrategy ← m.optional Form.text? "default_strategy"
  let nodes ← m.required (Form.list? Node.ofForm?) "nodes"
  return ⟨id, name, version, defaultStrategy, nodes⟩

end TreeDraft

/-! ### Strategies and assessments -/

namespace Cutoff

def form (c : Cutoff) : Document :=
  .record
    [("band", .text c.band), ("min_score", .real c.minScore), ("outcome", c.outcome.form)]

def ofForm? (d : Document) : Option Cutoff := do
  let m ← Form.members? ["band", "min_score", "outcome"] d
  let band ← m.required Form.text? "band"
  let minScore ← m.required Form.number? "min_score"
  let outcome ← m.required Decision.ofForm? "outcome"
  return ⟨band, minScore, outcome⟩

end Cutoff

namespace Gate

def form (g : Gate) : Document :=
  .record [("min_score", .real g.minScore), ("fail_outcome", g.failOutcome.form)]

def ofForm? (d : Document) : Option Gate := do
  let m ← Form.members? ["min_score", "fail_outcome"] d
  let minScore ← m.required Form.number? "min_score"
  let failOutcome ← m.orElse Decision.ofForm? "fail_outcome" .decline
  return ⟨minScore, failOutcome⟩

end Gate

namespace Strategy

def form (s : Strategy) : Document :=
  .record <|
    [("id", .text s.id), ("version", Form.ofCount s.version)] ++
      Form.optional "name" .text s.name ++
      [("evaluation_mode", s.mode.form),
        ("knock_out_rules", Form.ofList Rule.form s.knockOuts),
        ("overlay_rules", Form.ofList Rule.form s.overlays),
        ("score_cutoffs", Form.ofList Cutoff.form s.cutoffs),
        ("reason_code_map", Form.ofDict .text s.reasonCodes)] ++
      Form.optional "score_gate" Gate.form s.gate

def ofForm? (d : Document) : Option Strategy := do
  let m ← Form.members? knownMembers d
  let id ← m.required Form.text? "id"
  let version ← m.orElse Form.count? "version" 1
  let name ← m.optional Form.text? "name"
  let mode ← m.required Mode.ofForm? "evaluation_mode"
  let knockOuts ← m.orElse (Form.list? Rule.ofForm?) "knock_out_rules" []
  let overlays ← m.orElse (Form.list? Rule.ofForm?) "overlay_rules" []
  let cutoffs ← m.orElse (Form.list? Cutoff.ofForm?) "score_cutoffs" []
  let reasonCodes ← m.orElse (Form.dict? Form.text?) "reason_code_map" []
  let gate ← m.optional Gate.ofForm? "score_gate"
  return ⟨id, version, name, mode, knockOuts, overlays, cutoffs, reasonCodes, gate⟩

end Strategy

namespace Assessment

def form (a : Assessment) : Document :=
  .record <|
    [("id", .text a.id)] ++ Form.optional "name" .text a.name ++
      [("rules", Form.ofList Rule.form a.rules)]

def ofForm? (d : Document) : Option Assessment := do
  let m ← Form.members? ["id", "name", "rules"] d
  let id ← m.required Form.text? "id"
  let name ← m.optional Form.text? "name"
  let rules ← m.orElse (Form.list? Rule.ofForm?) "rules" []
  return ⟨id, name, rules⟩

end Assessment

namespace Bundle

def form (b : Bundle) : Document :=
  .record <|
    Form.optional "catalog" CatalogChanges.form b.catalog ++
      [("trees", Form.ofList TreeDraft.form b.trees),
        ("strategies", Form.ofList Strategy.form b.strategies),
        ("assessments", Form.ofList Assessment.form b.assessments)]

def ofForm? (d : Document) : Option Bundle := do
  let m ← Form.members? ["catalog", "trees", "strategies", "assessments"] d
  let catalog ← m.optional CatalogChanges.ofForm? "catalog"
  let trees ← m.orElse (Form.list? TreeDraft.ofForm?) "trees" []
  let strategies ← m.orElse (Form.list? Strategy.ofForm?) "strategies" []
  let assessments ← m.orElse (Form.list? Assessment.ofForm?) "assessments" []
  return ⟨catalog, trees, strategies, assessments⟩

end Bundle

end Lending
