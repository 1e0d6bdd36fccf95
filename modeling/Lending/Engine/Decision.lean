import Lending.Configuration
import Lending.Split
import Lending.Strategy.Execution

/-! Decisions: an application is routed, and what the route ends at is executed.

Live decisions, traces and replays all go through `Configuration.decide`. A split concerns the
applications that are routed to its champion and no others; an arm that is recorded with an
application wins over the arm of its bucket, so a stored decision is made again on the arm it
was made on. -/
namespace Lending

/-- A stored application. -/
structure Application where
  id : String
  applicant : Applicant
  context : Context
  /-- The decision that was first made on it. -/
  storedDecision : Option Decision
  /-- The arm that decision was made on. -/
  arm : Option Arm

namespace Application

def new (id : String) (applicant : Applicant) (context : Context) : Application :=
  ⟨id, applicant, context, none, none⟩

end Application

/-- A split as it applies to one application. -/
structure Allotment where
  split : Split
  /-- The bucket of the application. -/
  bucket : Nat
  recorded : Option Arm

namespace Allotment

/-- A split as it applies to an application, by the bucket that a digest gives. -/
def of (digest : Digest) (a : Application) (s : Split) : Allotment :=
  ⟨s, Split.bucket a.id digest, a.arm⟩

def ofApplication (split : Option Split) (a : Application) (digest : Digest := Digest.sha256) :
    Option Allotment :=
  split.map (of digest a)

def arm (a : Allotment) : Arm :=
  a.recorded.getD (a.split.armOf a.bucket)

/-- The arm of an application that is routed to a strategy, if that is the champion. -/
def armAt? (a : Option Allotment) (strategyId : String) : Option Arm :=
  match a with
  | some a => if a.split.champion = strategyId then some a.arm else none
  | none => none

/-- The strategy that is executed for an application that is routed to one. -/
def redirect (a : Option Allotment) (strategyId : String) : String :=
  match a with
  | some a => if a.split.champion = strategyId then a.split.strategyFor a.arm else strategyId
  | none => strategyId

end Allotment

/-- A route with what came of it. -/
structure Decided where
  routing : Routing
  outcome : Outcome
  /-- The arm, where a split applied. -/
  arm : Option Arm

namespace Configuration

/-- Executes a strategy or an assessment of the configuration. -/
def execute (c : Configuration) (card : Scorecard) (p : Applicant) (params : Dict Value) :
    Target → Except PolicyError Outcome
  | .strategy id =>
    match c.strategy? id with
    | some s => s.execute c.catalog card p params
    | none => .error (.unknownStrategy id)
  | .assessment id =>
    match c.assessment? id with
    | some a => a.execute p params
    | none => .error (.unknownAssessment id)

/-- The target of a route after the split, and the arm. -/
def allot (allotment : Option Allotment) : Target → Target × Option Arm
  | .strategy id => (.strategy (Allotment.redirect allotment id), Allotment.armAt? allotment id)
  | .assessment id => (.assessment id, none)

/-- Executes what a route ends at. -/
def finish (c : Configuration) (card : Scorecard) (p : Applicant) (allotment : Option Allotment)
    (routing : Routing) : Except Failure Decided :=
  match routing.target? with
  | none => .error (.configuration .noTarget)
  | some target => do
    let allotted := allot allotment target
    let outcome ← (c.execute card p routing.params allotted.1).mapError .policy
    return ⟨routing, outcome, allotted.2⟩

/-- Decides on an applicant in a context. -/
def decide (c : Configuration) (card : Scorecard) (p : Applicant) (ctx : Context)
    (allotment : Option Allotment) : Except Failure Decided := do
  let routing ← (c.tree.route ctx).mapError .policy
  c.finish card p allotment routing

/-- The warnings of a decision: those of the route, then those of the rules. -/
def decisionWarnings (c : Configuration) (ctx : Context) (decided : Except Failure Decided) :
    List Warning :=
  c.tree.routeWarnings ctx ++
    match decided with
    | .ok d => d.outcome.warnings
    | .error _ => []

/-- A decision with its warnings. -/
def decideNoted (c : Configuration) (card : Scorecard) (p : Applicant) (ctx : Context)
    (allotment : Option Allotment) : Noted Failure Decided :=
  let decided := c.decide card p ctx allotment
  ⟨c.decisionWarnings ctx decided, decided⟩

end Configuration

end Lending
