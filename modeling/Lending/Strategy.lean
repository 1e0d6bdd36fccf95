import Lending.PolicyError
import Lending.Rule.Catalog

/-! Strategies and assessments: what a route ends at.

A strategy decides in one of four modes, from the rule catalog, from rules of its own, from a
score, or from a score in front of its rules. An assessment applies a list of rules of its
own. -/
namespace Lending

/-- How a strategy reaches its decision. -/
inductive Mode where
  /-- The rule catalog alone. -/
  | sequential
  /-- Knock-out rules, then overlay rules, then score bands. -/
  | dualPath
  /-- Score bands alone. -/
  | scoring
  /-- A score gate in front of the dual path. -/
  | hybrid
  deriving DecidableEq, Repr

def Mode.all : List Mode :=
  [.sequential, .dualPath, .scoring, .hybrid]

def Mode.name : Mode → String
  | .sequential => "sequential"
  | .dualPath => "dual_path"
  | .scoring => "scoring"
  | .hybrid => "hybrid"

/-- A band of scores: those from `minScore` up to the next band. -/
structure Cutoff where
  band : String
  minScore : Float
  outcome : Decision

/-- The score that a hybrid strategy asks for before its rules. -/
structure Gate where
  minScore : Float
  failOutcome : Decision

structure Strategy where
  id : String
  version : UInt32
  name : Option String
  mode : Mode
  knockOuts : List Rule
  overlays : List Rule
  cutoffs : List Cutoff
  /-- Reason codes by rule id. -/
  reasonCodes : Dict String
  gate : Option Gate

structure Assessment where
  id : String
  name : Option String
  rules : List Rule

namespace Strategy

def ofMode (id : String) (mode : Mode) : Strategy where
  id := id
  version := 1
  name := none
  mode := mode
  knockOuts := []
  overlays := []
  cutoffs := []
  reasonCodes := []
  gate := none

/-- The code under which a rule's failure is reported: the rule's id unless another is given. -/
def reasonCode (s : Strategy) (ruleId : String) : String :=
  (s.reasonCodes.get? ruleId).getD ruleId

/-- The bands from the highest down; equal ones stay in order. -/
def bandsDescending (s : Strategy) : List Cutoff :=
  s.cutoffs.mergeSort fun a b => decide (Number.rank b.minScore ≤ Number.rank a.minScore)

/-- The highest band that a score reaches. -/
def bandFor (s : Strategy) (score : Float) : Option Cutoff :=
  s.bandsDescending.find? fun c => decide (c.minScore ≤ score)

/-! ### Validity -/

/-- The first fault among the bands. -/
def cutoffFault? (c : Cutoff) : Option StrategyFault :=
  if Text.isBlankText c.band then some .emptyBand
  else if c.minScore.isFinite then none
  else some (.unboundedBand c.band)

/-- What the mode asks for beyond the bands' own soundness. -/
def modeFault? (s : Strategy) : Option StrategyFault :=
  match s.mode with
  | .scoring => if s.cutoffs.isEmpty then some .noCutoffs else none
  | .hybrid => if s.gate.isNone then some .noGate else none
  | _ => none

/-- Whether a strategy can be executed: it has an id, its rules have distinct ids, its bands
have names and finite ends, and it has what its mode needs. -/
def validate (s : Strategy) : Except PolicyError Unit :=
  if Text.isBlankText s.id then .error (.invalidStrategy s.id .emptyId)
  else do
    requireUnique (s.knockOuts ++ s.overlays)
    match s.cutoffs.findSome? cutoffFault? <|> s.modeFault? with
    | some fault => .error (.invalidStrategy s.id fault)
    | none => .ok ()

end Strategy

/-- The rules of an assessment have distinct ids. -/
def Assessment.validate (a : Assessment) : Except PolicyError Unit :=
  requireUnique a.rules

end Lending
