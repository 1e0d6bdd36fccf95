import Lending.Engine.Simulation
import Lending.Policy.Source

/-! The decision engine: a configuration with a scorecard, and with a split where there is
one. -/
namespace Lending

structure Engine where
  configuration : Configuration
  scorecard : Scorecard
  split : Option Split
  options : BatchOptions

/-- The record of a decision. The id that is drawn for a record and its time are left out, no
decision reads them. -/
structure DecisionRecord where
  /-- Of a stored application. -/
  applicationId : Option String
  decided : Decided

namespace DecisionRecord

def decision (r : DecisionRecord) : Decision :=
  r.decided.outcome.decision

end DecisionRecord

/-- Stores a decision with its application. -/
def Application.withDecision (a : Application) (r : DecisionRecord) : Application :=
  { a with storedDecision := some r.decision, arm := r.decided.arm }

namespace Engine

/-- An engine that goes by the score of the application. -/
def ofConfiguration (c : Configuration) : Engine :=
  ⟨c, .ofApplication, none, .standard⟩

/-- Both strategies of a split are part of the configuration. -/
def requireArms (c : Configuration) (s : Split) : Except Failure Unit :=
  match [s.champion, s.challenger].find? fun id => (c.strategy? id).isNone with
  | some id => .error (.policy (.unknownStrategy id))
  | none => .ok ()

/-- Splits the champion's applications. -/
def withSplit (e : Engine) (s : Split) : Except Failure Engine := do
  s.validate
  requireArms e.configuration s
  return { e with split := some s }

/-- Decides on an applicant. A split needs a stored application and takes no part. -/
def decide (e : Engine) (p : Applicant) (ctx : Context) : Noted Failure DecisionRecord := do
  let d ← e.configuration.decideNoted e.scorecard p ctx none
  return ⟨none, d⟩

/-- Decides on a stored application. -/
def decideApplication (e : Engine) (a : Application) : Noted Failure DecisionRecord := do
  let d ← e.configuration.decideNoted e.scorecard a.applicant a.context
    (Allotment.ofApplication e.split a)
  return ⟨some a.id, d⟩

/-- Simulations that decide as the engine does. -/
def simulation (e : Engine) : Simulation :=
  ⟨e.scorecard, e.options, e.split⟩

end Engine

/-! ### Setting an engine up -/

/-- What an engine is built from. -/
structure EngineSetup where
  sources : List Source
  /-- The tree to route with, where there are several. -/
  treeId : Option String
  /-- In the place of the tree's own default strategy. -/
  defaultStrategy : Option String
  scorecard : Option Scorecard
  split : Option Split
  options : BatchOptions

namespace EngineSetup

def empty : EngineSetup :=
  ⟨[], none, none, none, none, .standard⟩

/-- Loads and checks the configuration. -/
def load (s : EngineSetup) : Noted Failure Configuration := do
  let bundle ← Bundle.ofSources s.sources
  if bundle.isEmpty then Noted.fail (.configuration .noDocuments)
  else Configuration.ofBundle bundle s.treeId s.defaultStrategy

/-- Builds the engine. -/
def build (s : EngineSetup) : Noted Failure Engine := do
  let c ← s.load
  let e : Engine := ⟨c, s.scorecard.getD .ofApplication, none, s.options⟩
  match s.split with
  | some split => e.withSplit split
  | none => return e

end EngineSetup

end Lending
