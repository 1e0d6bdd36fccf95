import Lending.Policy.Members
import Lending.Rule.Catalog

/-! Rules and overrides as policy documents write them.

A rule with `conditions` is a compound rule; any other compares one field, and becomes a
computed rule when the field is a computed one. Without a severity of its own a rule that
refers is a refer rule, and every other rule a hard one. -/
namespace Lending

/-! ### Words -/

def Operator.read (s : String) : Except ReadError Operator :=
  match Operator.ofKeyword? (Text.keyword s) with
  | some op => .ok op
  | none => .error (.invalidOperator s)

/-- The logic under a member; `and` where there is none. -/
def Logic.read (d : Document) (member : String) : Except ReadError Logic :=
  match d.optionalText member with
  | none => .ok .and
  | some s => (Logic.ofText s).mapError fun fault => .invalidMember member (.unknownLogic fault)

def Severity.read (s : String) : Except ReadError Severity :=
  match Text.keyword s with
  | "hard" => .ok .hard
  | "refer" | "soft" => .ok .refer
  | other => .error (.invalidMember "severity" (.unknownSeverity other))

def RuleOutcome.read (s : String) : Except ReadError RuleOutcome :=
  match Text.keyword s with
  | "decline" => .ok .decline
  | "refer" => .ok .refer
  | "disable" | "disabled" => .ok .disable
  | other => .error (.invalidMember "outcome" (.unknownOutcome other))

/-- A word under a member, if it is there. -/
def Document.optionalWord {α : Type} (f : String → Except ReadError α) (d : Document)
    (member : String) : Except ReadError (Option α) :=
  match d.optionalText member with
  | none => .ok none
  | some s => (f s).map some

/-! ### Conditions -/

def Condition.read (d : Document) : Except ReadError Condition := do
  let field ← d.requiredText "field"
  let operator ← Operator.read (← d.requiredText "operator")
  match d.get? "threshold" with
  | some t => return ⟨field, operator, .ofDocument t⟩
  | none => throw (.missingMember "threshold")

/-- The computed field of a name, outer blanks apart. -/
def ComputedField.ofName? (name : String) : Option ComputedField :=
  match (Attribute.ofName? name : Option RuleField) with
  | some (.computed c) => some c
  | _ => none

/-- One comparison, of a computed field if the condition names one. -/
def RuleKind.ofCondition (c : Condition) : RuleKind :=
  match ComputedField.ofName? c.field with
  | some field => .computed field c.operator c.threshold
  | none => .stored c

def RuleKind.readCompound (d : Document) : Except ReadError RuleKind := do
  let logic ← Logic.read d "logic"
  match d.optionalItems "conditions" with
  | none => throw (.invalidMember "conditions" .notConditions)
  | some [] => throw (.invalidMember "conditions" .noConditions)
  | some items => return .compound logic (← items.mapM Condition.read)

def RuleKind.read (d : Document) : Except ReadError RuleKind :=
  if (d.get? "conditions").isSome then RuleKind.readCompound d
  else (Condition.read d).map .ofCondition

/-! ### Rules -/

namespace Rule

def knownMembers : List String :=
  ["id", "name", "description", "field", "operator", "threshold", "severity", "outcome", "enabled",
    "is_custom", "logic", "conditions"]

/-- The severity that goes with an outcome where none is given. -/
def severityFor (outcome : Option RuleOutcome) : Severity :=
  if outcome = some .refer then .refer else .hard

/-- A rule whose id is known. -/
def readBody (id : String) (d : Document) : Except ReadError Rule := do
  let name := (d.optionalText "name").getD id
  let outcome ← d.optionalWord RuleOutcome.read "outcome"
  let severity ← d.optionalWord Severity.read "severity"
  let kind ← RuleKind.read d
  let rule := ofKind id name kind (severity.getD (severityFor outcome))
  let enabled ← d.optionalFlag "enabled"
  let isCustom ← d.optionalFlag "is_custom"
  return { rule with
    description := d.optionalText "description"
    outcome := outcome.getD rule.outcome
    enabled := enabled.getD true
    isCustom := isCustom.getD false }

def read (d : Document) : Noted ReadError Rule := do
  let id ← d.requiredText "id"
  Noted.warn (d.unknownMembers knownMembers s!"rule '{id}'")
  readBody id d

/-- The rules under a member; none where there is no such member. -/
def readList (d : Document) (member : String) : Noted ReadError (List Rule) :=
  match d.get? member with
  | none | some .null => return []
  | some (.sequence items) => Noted.forEach read items
  | some _ => Noted.fail (.invalidMember member .notRules)

end Rule

/-! ### Overrides -/

namespace RuleOverride

def knownMembers : List String :=
  ["threshold", "outcome", "severity", "enabled"]

def readBody (d : Document) : Except ReadError RuleOverride := do
  let outcome ← d.optionalWord RuleOutcome.read "outcome"
  let severity ← d.optionalWord Severity.read "severity"
  let enabled ← d.optionalFlag "enabled"
  return ⟨(d.present? "threshold").map .ofDocument, outcome, severity, enabled⟩

/-- The override of a rule. -/
def read (ruleId : String) (d : Document) : Noted ReadError RuleOverride := do
  Noted.warn (d.unknownMembers knownMembers s!"override '{ruleId}'")
  readBody d

end RuleOverride

/-! ### Catalogs -/

/-- What a policy changes about the standard rules. -/
structure CatalogChanges where
  version : Option UInt32
  /-- By rule id. -/
  overrides : Dict RuleOverride
  /-- Rules of the policy's own. -/
  custom : List Rule

namespace CatalogChanges

def knownMembers : List String :=
  ["version", "overrides", "custom"]

def readOverride (m : Document × Document) : Noted ReadError (String × RuleOverride) :=
  match m.1.text? with
  | none => Noted.fail (.invalidMember "overrides" .overrideKey)
  | some id => do
    let o ← RuleOverride.read id m.2
    return (id, o)

def readOverrides (d : Document) : Noted ReadError (Dict RuleOverride) :=
  match d.get? "overrides" with
  | none | some .null => return []
  | some (.mapping members) => do
    let entries ← Noted.forEach readOverride members
    return Dict.ofList entries
  | some _ => Noted.fail (.invalidMember "overrides" .notOverrides)

def read (d : Document) : Noted ReadError CatalogChanges := do
  Noted.warn (d.unknownMembers knownMembers "catalog")
  let version ← d.optionalCount "version"
  let overrides ← readOverrides d
  let custom ← Rule.readList d "custom"
  return ⟨version, overrides, custom.map fun r => { r with isCustom := true }⟩

end CatalogChanges

/-- The catalog of a policy. -/
def Catalog.ofChanges (standard : List Rule) (c : CatalogChanges) : Noted PolicyError Catalog :=
  Catalog.resolveNoted standard c.overrides c.custom

end Lending
