import Lending.Applicant
import Lending.Threshold

/-! Rules: conditions that an applicant has to satisfy.

A rule passes when its condition holds. A failing rule counts with its severity; its outcome
is recorded with it, and the outcome `disable` switches the rule off like `enabled := false`
does. An override replaces parts of a rule and leaves the rest. -/
namespace Lending

/-- `field operator threshold`. -/
structure Condition where
  field : String
  operator : Operator
  threshold : Threshold

/-- What a rule checks. -/
inductive RuleKind where
  /-- One comparison of an attribute named by the policy. -/
  | stored (c : Condition)
  /-- One comparison of a computed attribute. -/
  | computed (field : ComputedField) (operator : Operator) (threshold : Threshold)
  /-- Several comparisons. -/
  | compound (logic : Logic) (conditions : List Condition)

/-- What a failing rule calls for. -/
inductive RuleOutcome where
  | decline
  | refer
  | disable
  deriving DecidableEq, Repr

/-- How much a failing rule weighs. -/
inductive Severity where
  | hard
  | refer
  deriving DecidableEq, Repr

def RuleOutcome.all : List RuleOutcome :=
  [.decline, .refer, .disable]

def RuleOutcome.name : RuleOutcome → String
  | .decline => "decline"
  | .refer => "refer"
  | .disable => "disable"

def Severity.all : List Severity :=
  [.hard, .refer]

def Severity.name : Severity → String
  | .hard => "hard"
  | .refer => "refer"

/-- What a failure of this severity calls for. -/
def Severity.outcome : Severity → RuleOutcome
  | .hard => .decline
  | .refer => .refer

structure Rule where
  id : String
  name : String
  description : Option String
  kind : RuleKind
  outcome : RuleOutcome
  severity : Severity
  isCustom : Bool
  enabled : Bool

/-- The parts of a rule that a catalog version replaces. -/
structure RuleOverride where
  threshold : Option Threshold
  outcome : Option RuleOutcome
  severity : Option Severity
  enabled : Option Bool

namespace Rule

/-- A rule whose outcome follows its severity. -/
def ofKind (id name : String) (kind : RuleKind) (severity : Severity) : Rule where
  id := id
  name := name
  description := none
  kind := kind
  outcome := severity.outcome
  severity := severity
  isCustom := false
  enabled := true

/-- A comparison of a named attribute. -/
def stored (id name field : String) (operator : Operator) (threshold : Threshold)
    (severity : Severity) : Rule :=
  ofKind id name (.stored ⟨field, operator, threshold⟩) severity

/-- A comparison of a computed attribute. -/
def computed (id name : String) (field : ComputedField) (operator : Operator)
    (threshold : Threshold) (severity : Severity) : Rule :=
  ofKind id name (.computed field operator threshold) severity

/-- A rule that is not switched off. -/
def isActive (r : Rule) : Bool :=
  r.enabled && r.outcome != .disable

/-- The attributes the rule reads, as the policy names them. -/
def fields (r : Rule) : List String :=
  match r.kind with
  | .stored c => [c.field]
  | .computed field _ _ => [field.name]
  | .compound _ conditions => conditions.map Condition.field

/-- Several comparisons have no threshold of their own. -/
def isCompound (r : Rule) : Bool :=
  match r.kind with
  | .compound _ _ => true
  | _ => false

end Rule

/-- The kind with another threshold; several comparisons stay as they are. -/
def RuleKind.withThreshold (k : RuleKind) (t : Threshold) : RuleKind :=
  match k with
  | .stored c => .stored { c with threshold := t }
  | .computed field operator _ => .computed field operator t
  | .compound logic conditions => .compound logic conditions

namespace RuleOverride

def empty : RuleOverride :=
  ⟨none, none, none, none⟩

/-- The rule with the override's parts in place. -/
def apply (o : RuleOverride) (r : Rule) : Rule :=
  { r with
    kind := match o.threshold with
      | some t => r.kind.withThreshold t
      | none => r.kind
    outcome := o.outcome.getD r.outcome
    severity := o.severity.getD r.severity
    enabled := o.enabled.getD r.enabled }

/-- Whether the override's threshold, if it has one, has a place in the rule. -/
def fits (o : RuleOverride) (r : Rule) : Bool :=
  !(o.threshold.isSome && r.isCompound)

end RuleOverride

end Lending
