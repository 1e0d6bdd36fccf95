import Lending.Strategy
import Lending.Text.Capital
import Lending.Tree.Routing

/-! Execution of strategies and assessments.

Each mode yields a verdict: the outcome with its reasons, and the steps that led to it. The
steps are numbered at the end. A dual path stops at the first stage that settles the outcome,
and the score is looked at only once the bands are reached. -/
namespace Lending

/-- Something that can give an applicant a score. -/
abbrev Scorecard := Applicant → Option Float

namespace Scorecard

/-- The score that came with the application, if it is a number. -/
def ofApplication : Scorecard := fun p =>
  p.applicationScore.filter Float.isFinite

/-- The same score for every applicant. -/
def fixed (score : Option Float) : Scorecard := fun _ => score

/-- An attribute's number, scaled and shifted. -/
def linear (field : String) (factor offset : Float) : Scorecard := fun p =>
  ((p.lookup field).bind Value.number?).map fun x => x * factor + offset

end Scorecard

/-! ### Steps -/

inductive StepOutcome where
  | pass
  | fail
  | skipped
  /-- Noted without a verdict. -/
  | recorded
  | approve
  | decline
  | refer
  deriving DecidableEq, Repr

def StepOutcome.all : List StepOutcome :=
  [.pass, .fail, .skipped, .recorded, .approve, .decline, .refer]

def StepOutcome.name : StepOutcome → String
  | .pass => "pass"
  | .fail => "fail"
  | .skipped => "skipped"
  | .recorded => "recorded"
  | .approve => "approve"
  | .decline => "decline"
  | .refer => "refer"

def Decision.stepOutcome : Decision → StepOutcome
  | .approve => .approve
  | .decline => .decline
  | .refer => .refer

/-- A step before it has a number. -/
structure Entry where
  name : String
  outcome : StepOutcome
  detail : String

/-- A step of an execution, numbered from one. -/
structure Step where
  number : Nat
  name : String
  outcome : StepOutcome
  detail : String

/-- Numbers entries in order. -/
def Step.numbered (entries : List Entry) : List Step :=
  entries.zipIdx.map fun (e, i) => ⟨i + 1, e.name, e.outcome, e.detail⟩

/-- The step of a rule: its stage, its id and what became of it. -/
def RuleResult.entry (stage : String) (r : RuleResult) : Entry where
  name := stage ++ ":" ++ r.ruleId
  outcome := if r.isSkipped then .skipped else if r.passed then .pass else .fail
  detail := r.message

/-- What an execution gives. -/
structure Outcome where
  target : Target
  version : Option UInt32
  mode : Option Mode
  decision : Decision
  /-- Reason codes, the most severe first. -/
  reasons : List String
  score : Option Float
  band : Option String
  steps : List Step
  /-- Every rule that was looked at. -/
  results : List RuleResult

/-- What a mode arrives at. -/
structure Verdict where
  decision : Decision
  reasons : List String
  score : Option Float
  band : Option String
  results : List RuleResult
  entries : List Entry

/-! ### Reason codes of scores -/

def scoreBelowGate : String :=
  "SCORE_BELOW_GATE"

def scoreBelowCutoff : String :=
  "SCORE_BELOW_CUTOFF"

def scoreUnavailable : String :=
  "SCORE_UNAVAILABLE"

def scoreBand (band : String) : String :=
  "SCORE_BAND_" ++ Text.capitals band

/-! ### Stages -/

namespace Strategy

/-- The step that records a score. -/
def scoreEntry (score : Option Float) : Entry :=
  match score with
  | some x => ⟨"score", .recorded, s!"score {Number.text x}"⟩
  | none => ⟨"score", .skipped, "score unavailable"⟩

/-- The verdict of the score bands: the highest band reached decides, no band declines, and
without a score the application is referred. -/
def bandVerdict (s : Strategy) (score : Option Float) : Verdict :=
  match score with
  | none =>
    { decision := .refer
      reasons := [scoreUnavailable]
      score := none
      band := none
      results := []
      entries := [⟨"score_band", .refer, "score unavailable"⟩] }
  | some x =>
    match s.bandFor x with
    | some c =>
      let detail := s!"score {Number.text x} in band {c.band} (min {Number.text c.minScore})"
      { decision := c.outcome
        reasons := if c.outcome = .approve then [] else [scoreBand c.band]
        score := score
        band := some c.band
        results := []
        entries := [⟨"score_band", c.outcome.stepOutcome, detail⟩] }
    | none =>
      { decision := .decline
        reasons := [scoreBelowCutoff]
        score := score
        band := none
        results := []
        entries := [⟨"score_band", .decline, s!"score {Number.text x} below all cutoffs"⟩] }

/-- The reason codes of failing rules. -/
def codes (s : Strategy) (failures : List RuleResult) : List String :=
  failures.map fun r => s.reasonCode r.ruleId

/-- A score as a stage comes by it: with the steps that taking it records. -/
structure TakenScore where
  score : Option Float
  entries : List Entry

/-- The last stage of a dual path: the score bands, or approval when there are none. -/
def lastStage (s : Strategy) (taken : TakenScore) : Verdict :=
  if s.cutoffs.isEmpty then
    { decision := .approve
      reasons := []
      score := none
      band := none
      results := []
      entries := [⟨"score_band", .skipped, "no score cutoffs configured"⟩] }
  else
    let v := s.bandVerdict taken.score
    { v with entries := taken.entries ++ v.entries }

/-- The stage after the knock-out rules: overlay failures of any severity refer, together with
the knock-out rules' refer failures. -/
def overlayStage (s : Strategy) (p : Applicant) (referred : List String) (taken : TakenScore) :
    Verdict :=
  let results := (evaluateRules p s.overlays).results
  let entries := results.map (RuleResult.entry "overlay")
  let reasons := referred ++ s.codes (failuresById results)
  if reasons.isEmpty then
    let v := s.lastStage taken
    { v with results := results ++ v.results, entries := entries ++ v.entries }
  else
    { decision := .refer
      reasons := reasons
      score := none
      band := none
      results := results
      entries := entries ++ [⟨"overlay", .fail, "referred: " ++ Text.joined ", " reasons⟩] }

/-- Knock-out rules, overlay rules, score bands, up to the first stage that settles the
outcome. -/
def dualPath (s : Strategy) (p : Applicant) (taken : TakenScore) : Verdict :=
  let results := (evaluateRules p s.knockOuts).results
  let entries := results.map (RuleResult.entry "knock_out")
  let hard := s.codes (failuresOf .hard results)
  if hard.isEmpty then
    let v := s.overlayStage p (s.codes (failuresOf .refer results)) taken
    { v with results := results ++ v.results, entries := entries ++ v.entries }
  else
    { decision := .decline
      reasons := hard
      score := none
      band := none
      results := results
      entries := entries ++ [⟨"knock_out", .fail, "knock-out failed: " ++ Text.joined ", " hard⟩] }

/-- The rule catalog's verdict. -/
def sequential (s : Strategy) (p : Applicant) (catalog : Catalog) : Verdict :=
  let e := evaluateRules p catalog.rules
  { decision := e.decision
    reasons := e.reasons.map s.reasonCode
    score := none
    band := none
    results := e.results
    entries := e.results.map (RuleResult.entry "rule") }

/-- Whether a score passes the gate; a missing score does not. -/
def passesGate (g : Gate) (score : Option Float) : Bool :=
  score.any fun x => decide (g.minScore ≤ x)

/-- The step of the gate. -/
def gateEntry (g : Gate) (score : Option Float) : Entry :=
  let word := if passesGate g score then ">=" else "<"
  let outcome := if passesGate g score then StepOutcome.pass else .fail
  let detail := match score with
    | some x => s!"score {Number.text x} {word} {Number.text g.minScore}"
    | none => "score unavailable"
  ⟨"score_gate", outcome, detail⟩

/-- A score gate in front of the dual path, which uses the gate's score. -/
def hybrid (s : Strategy) (p : Applicant) (score : Option Float) : Verdict :=
  match s.gate with
  | none =>
    let v := s.dualPath p ⟨score, []⟩
    { v with score := score, entries := scoreEntry score :: v.entries }
  | some g =>
    let entries := [scoreEntry score, gateEntry g score]
    if passesGate g score then
      let v := s.dualPath p ⟨score, []⟩
      { v with score := score, entries := entries ++ v.entries }
    else
      { decision := g.failOutcome
        reasons := [scoreBelowGate]
        score := score
        band := none
        results := []
        entries := entries }

/-- The score bands alone. -/
def scoring (s : Strategy) (score : Option Float) : Verdict :=
  let v := s.bandVerdict score
  { v with entries := scoreEntry score :: v.entries }

/-- The verdict of a strategy's mode. -/
def verdict (s : Strategy) (catalog : Catalog) (card : Scorecard) (p : Applicant) : Verdict :=
  match s.mode with
  | .sequential => s.sequential p catalog
  | .dualPath => s.dualPath p ⟨card p, [scoreEntry (card p)]⟩
  | .scoring => s.scoring (card p)
  | .hybrid => s.hybrid p (card p)

end Strategy

/-- The verdict of an assessment's rules. -/
def Assessment.verdict (a : Assessment) (p : Applicant) : Verdict :=
  let e := evaluateRules p a.rules
  { decision := e.decision
    reasons := e.reasons
    score := none
    band := none
    results := e.results
    entries := e.results.map (RuleResult.entry "rule") }

/-! ### Outcomes -/

/-- The step that records the parameters of the route, if there are any. -/
def paramEntries (params : Dict Value) : List Entry :=
  if params.isEmpty then []
  else
    let detail := Text.joined ", " (params.map fun (key, v) => key ++ "=" ++ v.render)
    [⟨"routing_params", .recorded, detail⟩]

namespace Verdict

/-- The step that states the decision. -/
def decisionEntry (v : Verdict) : Entry :=
  let band := match v.band with
    | some b => s!" (band {b})"
    | none => ""
  let reasons := if v.reasons.isEmpty then "" else ": " ++ Text.joined ", " v.reasons
  ⟨"decision", v.decision.stepOutcome, v.decision.name ++ band ++ reasons⟩

/-- The verdict with its steps numbered, parameters first and the decision last. -/
def outcome (v : Verdict) (target : Target) (version : Option UInt32) (mode : Option Mode)
    (params : Dict Value) : Outcome where
  target := target
  version := version
  mode := mode
  decision := v.decision
  reasons := v.reasons
  score := v.score
  band := v.band
  steps := Step.numbered (paramEntries params ++ v.entries ++ [v.decisionEntry])
  results := v.results

end Verdict

/-- Executes a strategy. -/
def Strategy.execute (s : Strategy) (catalog : Catalog) (card : Scorecard) (p : Applicant)
    (params : Dict Value) : Except PolicyError Outcome := do
  s.validate
  return (s.verdict catalog card p).outcome (.strategy s.id) (some s.version) (some s.mode) params

/-- Executes an assessment. -/
def Assessment.execute (a : Assessment) (p : Applicant) (params : Dict Value) :
    Except PolicyError Outcome := do
  a.validate
  return (a.verdict p).outcome (.assessment a.id) none none params

/-- The warnings of the rules that an execution looked at. -/
def Outcome.warnings (o : Outcome) : List Warning :=
  ruleWarnings o.results

end Lending
