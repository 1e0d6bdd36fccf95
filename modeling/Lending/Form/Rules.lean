import Lending.Form.Members
import Lending.Policy.RuleDocument

/-! The forms of rules, overrides and catalog changes. Names among the members of a rule's kind
are names inside a tagged type. A threshold's form does not say which of its shapes it has: a
mapping with numbers as `min` and `max` is a range, a sequence a list, and anything else a
scalar. -/
namespace Lending

def Operator.form (op : Operator) : Document :=
  .text op.name

def Operator.ofForm? (d : Document) : Option Operator :=
  Form.name? Operator.all Operator.name d

def Operator.ofTaggedForm? (d : Document) : Option Operator :=
  Form.taggedName? Operator.all Operator.name d

def Logic.form (l : Logic) : Document :=
  .text l.name

def Logic.ofTaggedForm? (d : Document) : Option Logic :=
  Form.taggedName? Logic.all Logic.name d

def Severity.form (s : Severity) : Document :=
  .text s.name

def Severity.ofForm? (d : Document) : Option Severity :=
  Form.name? Severity.all Severity.name d

def RuleOutcome.form (o : RuleOutcome) : Document :=
  .text o.name

def RuleOutcome.ofForm? (d : Document) : Option RuleOutcome :=
  Form.name? RuleOutcome.all RuleOutcome.name d

def ComputedField.ofForm? (d : Document) : Option ComputedField :=
  Form.name? ComputedField.all ComputedField.name d

def ComputedField.ofTaggedForm? (d : Document) : Option ComputedField :=
  Form.taggedName? ComputedField.all ComputedField.name d

/-! ### Thresholds and conditions -/

def Threshold.form : Threshold → Document
  | .range min max => .record [("min", .real min), ("max", .real max)]
  | .list items => Form.ofList Document.ofValue items
  | .scalar v => .ofValue v

def Threshold.ofForm? (d : Document) : Option Threshold :=
  some (.ofDocument d)

def Value.ofForm? (d : Document) : Option Value :=
  some d.toValue

namespace Condition

def names : List String :=
  ["field", "operator", "threshold"]

def fields (c : Condition) : List (String × Document) :=
  [("field", .text c.field), ("operator", c.operator.form), ("threshold", c.threshold.form)]

def form (c : Condition) : Document :=
  .record c.fields

def ofForm? (d : Document) : Option Condition := do
  let m ← Form.members? names d
  let field ← m.required Form.text? "field"
  let operator ← m.required Operator.ofTaggedForm? "operator"
  let threshold ← m.required Threshold.ofForm? "threshold"
  return ⟨field, operator, threshold⟩

end Condition

/-! ### Rules -/

namespace RuleKind

def form : RuleKind → Document
  | .stored c => .record (("kind", .text "threshold") :: c.fields)
  | .computed field operator threshold =>
    .record
      [("kind", .text "computed"), ("field", .text field.name), ("operator", operator.form),
        ("threshold", threshold.form)]
  | .compound logic conditions =>
    .record
      [("kind", .text "compound"), ("logic", logic.form),
        ("conditions", Form.ofList Condition.form conditions)]

def computedOfForm? (d : Document) : Option RuleKind := do
  let m ← Form.members? Condition.names d
  let field ← m.required ComputedField.ofTaggedForm? "field"
  let operator ← m.required Operator.ofTaggedForm? "operator"
  let threshold ← m.required Threshold.ofForm? "threshold"
  return .computed field operator threshold

def compoundOfForm? (d : Document) : Option RuleKind := do
  let m ← Form.members? ["logic", "conditions"] d
  let logic ← m.required Logic.ofTaggedForm? "logic"
  let conditions ← m.required (Form.list? Condition.ofForm?) "conditions"
  return .compound logic conditions

def ofForm? (d : Document) : Option RuleKind := do
  let t ← Form.tagged? "kind" d
  match ← Form.text? t.tag with
  | "threshold" => (Condition.ofForm? t.rest).map .stored
  | "computed" => computedOfForm? t.rest
  | "compound" => compoundOfForm? t.rest
  | _ => none

end RuleKind

namespace Rule

def form (r : Rule) : Document :=
  .record <|
    [("id", .text r.id), ("name", .text r.name)] ++
      Form.optional "description" .text r.description ++
      [("kind", r.kind.form), ("outcome", r.outcome.form), ("severity", r.severity.form),
        ("is_custom", .flag r.isCustom), ("enabled", .flag r.enabled)]

def names : List String :=
  ["id", "name", "description", "kind", "outcome", "severity", "is_custom", "enabled"]

def ofForm? (d : Document) : Option Rule := do
  let m ← Form.members? names d
  let id ← m.required Form.text? "id"
  let name ← m.required Form.text? "name"
  let description ← m.optional Form.text? "description"
  let kind ← m.required RuleKind.ofForm? "kind"
  let outcome ← m.required RuleOutcome.ofForm? "outcome"
  let severity ← m.required Severity.ofForm? "severity"
  let isCustom ← m.orElse Form.flag? "is_custom" false
  let enabled ← m.orElse Form.flag? "enabled" true
  return ⟨id, name, description, kind, outcome, severity, isCustom, enabled⟩

end Rule

namespace RuleOverride

def form (o : RuleOverride) : Document :=
  .record <|
    Form.optional "threshold" Threshold.form o.threshold ++
      Form.optional "outcome" RuleOutcome.form o.outcome ++
      Form.optional "severity" Severity.form o.severity ++
      Form.optional "enabled" .flag o.enabled

def ofForm? (d : Document) : Option RuleOverride := do
  let m ← Form.members? ["threshold", "outcome", "severity", "enabled"] d
  let threshold ← m.optional Threshold.ofForm? "threshold"
  let outcome ← m.optional RuleOutcome.ofForm? "outcome"
  let severity ← m.optional Severity.ofForm? "severity"
  let enabled ← m.optional Form.flag? "enabled"
  return ⟨threshold, outcome, severity, enabled⟩

end RuleOverride

namespace CatalogChanges

def form (c : CatalogChanges) : Document :=
  .record <|
    Form.optional "version" Form.ofCount c.version ++
      [("overrides", Form.ofDict RuleOverride.form c.overrides),
        ("custom", Form.ofList Rule.form c.custom)]

def ofForm? (d : Document) : Option CatalogChanges := do
  let m ← Form.members? ["version", "overrides", "custom"] d
  let version ← m.optional Form.count? "version"
  let overrides ← m.orElse (Form.dict? RuleOverride.ofForm?) "overrides" []
  let custom ← m.orElse (Form.list? Rule.ofForm?) "custom" []
  return ⟨version, overrides, custom⟩

end CatalogChanges

end Lending
