import Lending.DataError
import Lending.Text

/-! What is wrong with a policy document before its parts are checked against each other. -/
namespace Lending

/-- What is wrong with a member that is there. -/
inductive Complaint where
  | notCount
  | notFlag
  | notNumber
  | notMapping
  | notRules
  | notConditions
  | noConditions
  | notOverrides
  | overrideKey
  | unknownSeverity (text : String)
  | unknownOutcome (text : String)
  | unknownDecision (text : String)
  | unknownMode (text : String)
  | unknownLogic (fault : DataError)
  | unknownNodeType (type node : String)
  | unknownConditionType (type node : String)
  deriving DecidableEq, Repr

def Complaint.message : Complaint → String
  | .notCount => "expected a non-negative integer"
  | .notFlag => "expected true or false"
  | .notNumber => "expected a number"
  | .notMapping => "expected a mapping"
  | .notRules => "expected a list of rules"
  | .notConditions => "expected a list of conditions"
  | .noConditions => "compound rule needs at least one condition"
  | .notOverrides => "expected a mapping of rule id to override"
  | .overrideKey => "override keys must be rule ids"
  | .unknownSeverity text => s!"unknown severity '{text}', expected hard or refer"
  | .unknownOutcome text => s!"unknown outcome '{text}', expected decline, refer or disable"
  | .unknownDecision text => s!"unknown decision '{text}'"
  | .unknownMode text =>
    s!"unknown evaluation mode '{text}', expected sequential, dual_path, scoring or hybrid"
  | .unknownLogic fault => fault.message
  | .unknownNodeType type node => s!"unknown node type '{type}' on node '{node}'"
  | .unknownConditionType type node => s!"unknown condition type '{type}' on node '{node}'"

inductive ReadError where
  /-- The text is no YAML. -/
  | malformedText
  | missingMember (member : String)
  | invalidMember (member : String) (complaint : Complaint)
  | invalidOperator (text : String)
  /-- The document of this place in the text, counted from one, is no policy document. -/
  | unknownDocument (place : Nat) (keys : List String)
  | secondCatalog
  deriving DecidableEq, Repr

def ReadError.message : ReadError → String
  | .malformedText => "YAML parsing error"
  | .missingMember member => s!"Missing required field: {member}"
  | .invalidMember member complaint => s!"Invalid value for field '{member}': {complaint.message}"
  | .invalidOperator text => s!"Invalid operator: {text}"
  | .unknownDocument place keys =>
    "Unknown document kind, expected one of catalog/tree/strategy/assessment: " ++
      s!"document {place} has no catalog, tree, strategy or assessment key (found: " ++
      Text.joined ", " keys ++ ")"
  | .secondCatalog => "Parse error: more than one catalog document"

end Lending
