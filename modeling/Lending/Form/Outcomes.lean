import Lending.Form.Policies
import Lending.Form.Records
import Lending.Strategy.Execution

/-! The forms of what evaluation, routing and execution give. -/
namespace Lending

/-! ### Rule results -/

namespace RuleResult

def form (r : RuleResult) : Document :=
  .record <|
    [("rule_id", .text r.ruleId), ("rule_name", .text r.ruleName), ("field", .text r.field)] ++
      Form.optional "operator" Operator.form r.operator ++
      Form.optional "threshold" Threshold.form r.threshold ++
      [("actual", .ofValue r.actual), ("severity", r.severity.form), ("passed", .flag r.passed)] ++
      Form.optional "skipped" (fun s : SkipReason => .text s.name) r.skipped ++
      [("is_custom", .flag r.isCustom), ("message", .text r.message)]

def names : List String :=
  ["rule_id", "rule_name", "field", "operator", "threshold", "actual", "severity", "passed",
    "skipped", "is_custom", "message"]

def ofForm? (d : Document) : Option RuleResult := do
  let m ← Form.members? names d
  let ruleId ← m.required Form.text? "rule_id"
  let ruleName ← m.required Form.text? "rule_name"
  let field ← m.required Form.text? "field"
  let operator ← m.optional Operator.ofForm? "operator"
  let threshold ← m.optional Threshold.ofForm? "threshold"
  let actual ← m.required Value.ofForm? "actual"
  let severity ← m.required Severity.ofForm? "severity"
  let passed ← m.required Form.flag? "passed"
  let skipped ← m.optional (Form.name? SkipReason.all SkipReason.name) "skipped"
  let isCustom ← m.required Form.flag? "is_custom"
  let message ← m.required Form.text? "message"
  return ⟨ruleId, ruleName, field, operator, threshold, actual, severity, passed, skipped, isCustom,
    message⟩

end RuleResult

def Benchmark.form (b : Benchmark) : Document :=
  .record
    [("rule_id", .text b.ruleId), ("field", .text b.field), ("actual", .real b.actual),
      ("threshold", .real b.threshold), ("margin", .real b.margin)]

def Evaluation.form (e : Evaluation) : Document :=
  .record
    [("outcome", .text e.outcome.name), ("rule_results", Form.ofList RuleResult.form e.results),
      ("reasons", Form.ofTexts e.reasons), ("benchmarks", Form.ofList Benchmark.form e.benchmarks)]

/-! ### Routes -/

def PathStep.form (s : PathStep) : Document :=
  .record <|
    [("node_key", .text s.nodeKey), ("condition_type", s.conditionType.form)] ++
      Form.optional "attribute" .text s.field ++
      [("actual_value", .ofValue s.actual), ("branch_taken", .text s.branch),
        ("selection", .text s.selection.name)]

def Routing.form (r : Routing) : Document :=
  .record <|
    Form.optional "strategy_id" .text r.strategyId ++
      Form.optional "assessment_id" .text r.assessmentId ++
      [("strategy_params", Form.ofDict Document.ofValue r.params)] ++
      Form.optional "terminal_node" .text r.terminalNode ++
      [("used_default_strategy", .flag r.usedDefault), ("path", Form.ofList PathStep.form r.path)]

/-! ### Executions -/

namespace Target

def form (t : Target) : Document :=
  .record [("kind", .text t.kindName), ("id", .text t.id)]

def ofForm? (d : Document) : Option Target := do
  let m ← Form.members? ["kind", "id"] d
  let kind ← m.required Form.word? "kind"
  let id ← m.required Form.text? "id"
  match kind with
  | "strategy" => some (.strategy id)
  | "assessment" => some (.assessment id)
  | _ => none

end Target

namespace Step

def form (s : Step) : Document :=
  .record
    [("step", Form.ofNat s.number), ("name", .text s.name), ("outcome", .text s.outcome.name),
      ("detail", .text s.detail)]

def ofForm? (d : Document) : Option Step := do
  let m ← Form.members? ["step", "name", "outcome", "detail"] d
  let number ← m.required (Form.natural? UInt32.size) "step"
  let name ← m.required Form.text? "name"
  let outcome ← m.required (Form.name? StepOutcome.all StepOutcome.name) "outcome"
  let detail ← m.required Form.text? "detail"
  return ⟨number, name, outcome, detail⟩

end Step

namespace Outcome

def form (o : Outcome) : Document :=
  .record <|
    [("target", o.target.form)] ++
      Form.optional "version" Form.ofCount o.version ++
      Form.optional "evaluation_mode" Mode.form o.mode ++
      [("outcome", o.decision.form), ("reasons", Form.ofTexts o.reasons)] ++
      Form.optional "score" .real o.score ++
      Form.optional "band" .text o.band ++
      [("evaluation_steps", Form.ofList Step.form o.steps),
        ("rule_results", Form.ofList RuleResult.form o.results)]

def names : List String :=
  ["target", "version", "evaluation_mode", "outcome", "reasons", "score", "band", "evaluation_steps",
    "rule_results"]

def ofForm? (d : Document) : Option Outcome := do
  let m ← Form.members? names d
  let target ← m.required Target.ofForm? "target"
  let version ← m.optional Form.count? "version"
  let mode ← m.optional Mode.ofForm? "evaluation_mode"
  let decision ← m.required Decision.ofForm? "outcome"
  let reasons ← m.required (Form.list? Form.text?) "reasons"
  let score ← m.optional Form.number? "score"
  let band ← m.optional Form.text? "band"
  let steps ← m.required (Form.list? Step.ofForm?) "evaluation_steps"
  let results ← m.required (Form.list? RuleResult.ofForm?) "rule_results"
  return ⟨target, version, mode, decision, reasons, score, band, steps, results⟩

end Outcome

end Lending
