import Lending.Rule

/-! Evaluation of rules.

Each rule of a list gives one result. A rule that cannot be evaluated, because it is switched
off, an attribute it reads is not there, or a threshold does not suit its operator, is skipped,
and a skipped rule counts as passed. Any failing hard rule declines; otherwise any failing
refer rule sends the application to review; otherwise it is approved. -/
namespace Lending

/-- The decision on an application. -/
inductive Decision where
  | approve
  | decline
  | refer
  deriving DecidableEq, Repr

def Decision.all : List Decision :=
  [.approve, .decline, .refer]

def Decision.name : Decision → String
  | .approve => "approve"
  | .decline => "decline"
  | .refer => "refer"

/-- What a list of rules says of an applicant. -/
inductive Aggregate where
  | autoApprove
  | manualReview
  | autoDecline
  deriving DecidableEq, Repr

def Aggregate.name : Aggregate → String
  | .autoApprove => "auto_approve"
  | .manualReview => "manual_review"
  | .autoDecline => "auto_decline"

def Aggregate.decision : Aggregate → Decision
  | .autoApprove => .approve
  | .manualReview => .refer
  | .autoDecline => .decline

inductive SkipReason where
  | fieldNotAvailable
  | ruleDisabled
  | malformedThreshold
  deriving DecidableEq, Repr

def SkipReason.all : List SkipReason :=
  [.fieldNotAvailable, .ruleDisabled, .malformedThreshold]

def SkipReason.name : SkipReason → String
  | .fieldNotAvailable => "field_not_available"
  | .ruleDisabled => "rule_disabled"
  | .malformedThreshold => "malformed_threshold"

/-- What became of one rule. -/
structure RuleResult where
  ruleId : String
  ruleName : String
  /-- The attributes read, separated by commas. -/
  field : String
  operator : Option Operator
  threshold : Option Threshold
  /-- The observed value; of several comparisons, whether they hold together. -/
  actual : Value
  severity : Severity
  passed : Bool
  skipped : Option SkipReason
  isCustom : Bool
  message : String

namespace RuleResult

def isSkipped (r : RuleResult) : Bool :=
  r.skipped.isSome

/-- The rule was evaluated and its condition does not hold. -/
def failed (r : RuleResult) : Bool :=
  !r.passed && r.skipped.isNone

end RuleResult

/-- How far an observed number lies from a numeric threshold. -/
structure Benchmark where
  ruleId : String
  field : String
  actual : Float
  threshold : Float
  margin : Float

structure Evaluation where
  outcome : Aggregate
  /-- One for each rule, in their order. -/
  results : List RuleResult
  /-- The failing hard rules by id, then the failing refer rules by id. -/
  reasons : List String
  benchmarks : List Benchmark

/-! ### One rule -/

namespace Rule

/-- The result of a rule before it is looked at. -/
def blankResult (r : Rule) : RuleResult where
  ruleId := r.id
  ruleName := r.name
  field := Text.joined "," r.fields
  operator := none
  threshold := none
  actual := .null
  severity := r.severity
  passed := true
  skipped := none
  isCustom := r.isCustom
  message := ""

end Rule

namespace RuleResult

def disabled (r : RuleResult) : RuleResult :=
  { r with skipped := some .ruleDisabled, message := "rule disabled" }

def unavailable (r : RuleResult) (field : String) : RuleResult :=
  { r with skipped := some .fieldNotAvailable, message := s!"field not available: {field}" }

def malformed (r : RuleResult) (m : Threshold.Malformed) : RuleResult :=
  { r with skipped := some .malformedThreshold, message := m.message }

def verdictWord (passed : Bool) : String :=
  if passed then "passed" else "failed"

/-- One comparison of an observed value. -/
def compared (r : RuleResult) (actual : Value) (op : Operator) (t : Threshold) : RuleResult :=
  match actual.compare op t with
  | .ok passed =>
    { r with
      actual := actual
      passed := passed
      message := r.field ++ " " ++ actual.render ++ " " ++ op.symbol ++ " " ++ t.render ++ ": " ++
        verdictWord passed }
  | .error m => { r with actual := actual }.malformed m

/-- One comparison of an attribute that may not be there. -/
def single (r : RuleResult) (field : String) (actual : Option Value) (op : Operator)
    (t : Threshold) : RuleResult :=
  let r := { r with operator := some op, threshold := some t }
  match actual with
  | none => r.unavailable field
  | some actual => if actual.isMissing then r.unavailable field else r.compared actual op t

end RuleResult

/-- Why a condition cannot be evaluated. -/
inductive Condition.Obstacle where
  | unavailable (field : String)
  | malformed (m : Threshold.Malformed)

/-- Whether a condition holds, or what is in its way. -/
def Condition.evaluate (c : Condition) (p : Applicant) : Except Condition.Obstacle Bool :=
  match p.lookup c.field with
  | none => .error (.unavailable c.field)
  | some actual =>
    if actual.isMissing then .error (.unavailable c.field)
    else (actual.compare c.operator c.threshold).mapError .malformed

namespace Rule

/-- Several comparisons. The first condition that cannot be evaluated skips the rule, also when
the others would settle it. -/
def compoundResult (r : RuleResult) (p : Applicant) (logic : Logic) (conditions : List Condition) :
    RuleResult :=
  match conditions.mapM (Condition.evaluate · p) with
  | .error (.unavailable field) => r.unavailable field
  | .error (.malformed m) => r.malformed m
  | .ok outcomes =>
    let passed := logic.combine outcomes
    let word := match logic with
      | .and => "all"
      | .or => "any"
    { r with
      passed := passed
      actual := .flag passed
      message := s!"{word} of {conditions.length} conditions: {RuleResult.verdictWord passed}" }

/-- The result of a rule for an applicant. -/
def evaluate (r : Rule) (p : Applicant) : RuleResult :=
  if !r.isActive then r.blankResult.disabled
  else
    match r.kind with
    | .stored c => r.blankResult.single c.field (p.lookup c.field) c.operator c.threshold
    | .computed field op t =>
      r.blankResult.single field.name (some (p.value (.computed field))) op t
    | .compound logic conditions => compoundResult r.blankResult p logic conditions

end Rule

/-! ### A list of rules -/

/-- The distance from the threshold, of results of one comparison between numbers. -/
def RuleResult.benchmark? (r : RuleResult) : Option Benchmark :=
  if r.isSkipped then none
  else
    match r.actual.number?, r.threshold.bind Threshold.number? with
    | some actual, some threshold => some ⟨r.ruleId, r.field, actual, threshold, actual - threshold⟩
    | _, _ => none

/-- The order in which reasons are given. -/
def RuleResult.idOrder (a b : RuleResult) : Bool :=
  decide (a.ruleId ≤ b.ruleId)

/-- The failing results, by rule id. -/
def failuresById (results : List RuleResult) : List RuleResult :=
  (results.filter RuleResult.failed).mergeSort RuleResult.idOrder

/-- The failing results of one severity, by rule id. -/
def failuresOf (severity : Severity) (results : List RuleResult) : List RuleResult :=
  failuresById (results.filter (·.severity == severity))

/-- The outcome that failing hard rules and failing refer rules call for. -/
def Aggregate.ofFailures (hard refer : List RuleResult) : Aggregate :=
  if !hard.isEmpty then .autoDecline
  else if !refer.isEmpty then .manualReview
  else .autoApprove

/-- The evaluation that a list of results makes. -/
def Evaluation.ofResults (results : List RuleResult) : Evaluation :=
  let hard := failuresOf .hard results
  let refer := failuresOf .refer results
  { outcome := .ofFailures hard refer
    results := results
    reasons := (hard ++ refer).map RuleResult.ruleId
    benchmarks := results.filterMap RuleResult.benchmark? }

/-- Evaluates a list of rules. -/
def evaluateRules (p : Applicant) (rules : List Rule) : Evaluation :=
  .ofResults (rules.map (Rule.evaluate · p))

namespace Evaluation

def decision (e : Evaluation) : Decision :=
  e.outcome.decision

def result? (e : Evaluation) (ruleId : String) : Option RuleResult :=
  e.results.find? (·.ruleId == ruleId)

def skipped (e : Evaluation) : List RuleResult :=
  e.results.filter RuleResult.isSkipped

end Evaluation

end Lending
