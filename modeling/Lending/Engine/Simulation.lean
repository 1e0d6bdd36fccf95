import Lending.Engine.Decision

/-! What-if questions about stored applications.

A trace decides one application with some of its attributes replaced. A replay decides a batch
again and compares with the stored decisions. An impact analysis decides a batch under two
configurations. All of them decide the way live decisions are made. -/
namespace Lending

/-- How batches are run. -/
structure BatchOptions where
  /-- Whether a batch may be spread over processors; its report is the same either way. -/
  parallel : Bool
  /-- The largest batch that is accepted. -/
  maxSize : UInt64
  deriving DecidableEq, Repr

namespace BatchOptions

def standard : BatchOptions :=
  ⟨true, 50000⟩

end BatchOptions

/-- What simulations share with the engine they belong to. -/
structure Simulation where
  scorecard : Scorecard
  options : BatchOptions
  split : Option Split

/-! ### Reports -/

/-- How many decisions there were of each kind. -/
structure Tally where
  approve : Nat
  decline : Nat
  refer : Nat
  deriving DecidableEq, Repr

namespace Tally

def zero : Tally :=
  ⟨0, 0, 0⟩

/-- Counts one decision more. -/
def count (t : Tally) : Decision → Tally
  | .approve => { t with approve := t.approve + 1 }
  | .decline => { t with decline := t.decline + 1 }
  | .refer => { t with refer := t.refer + 1 }

def get (t : Tally) : Decision → Nat
  | .approve => t.approve
  | .decline => t.decline
  | .refer => t.refer

end Tally

/-- A decision on one application with some attributes replaced. -/
structure Trace where
  applicationId : String
  overrides : Dict Value
  storedDecision : Option Decision
  /-- Whether there is a stored decision and it was another. -/
  changed : Bool
  decided : Decided

/-- An application on which another decision is made than the stored one. -/
structure OutcomeChange where
  applicationId : String
  old : Decision
  new : Decision
  deriving DecidableEq, Repr

/-- An application that could not be decided. -/
structure BatchFailure where
  applicationId : String
  message : String
  deriving DecidableEq, Repr

structure ReplayReport where
  total : Nat
  /-- The applications that were decided. -/
  evaluated : Nat
  /-- Of the stored decisions of the applications that were decided. -/
  storedCounts : Tally
  newCounts : Tally
  changed : List OutcomeChange
  errors : List BatchFailure
  /-- The share of applications with a stored decision on which the same decision was made. -/
  agreementRate : Float

inductive ChangeKind where
  | newlyApproved
  | newlyDeclined
  | newlyReferred
  | unchanged
  deriving DecidableEq, Repr

namespace ChangeKind

def name : ChangeKind → String
  | newlyApproved => "newly_approved"
  | newlyDeclined => "newly_declined"
  | newlyReferred => "newly_referred"
  | unchanged => "unchanged"

/-- The kind of a change, which goes by the new decision. -/
def classify (old new : Decision) : ChangeKind :=
  if old = new then unchanged
  else
    match new with
    | .approve => newlyApproved
    | .decline => newlyDeclined
    | .refer => newlyReferred

end ChangeKind

/-- An application that two configurations decide differently. -/
structure ImpactChange where
  applicationId : String
  old : Decision
  new : Decision
  kind : ChangeKind
  oldTarget : String
  newTarget : String
  deriving DecidableEq, Repr

structure ImpactReport where
  total : Nat
  /-- The applications that both configurations decide. -/
  evaluated : Nat
  newlyApproved : Nat
  newlyDeclined : Nat
  newlyReferred : Nat
  unchanged : Nat
  changes : List ImpactChange
  errors : List BatchFailure
  deriving DecidableEq, Repr

namespace ImpactReport

def changedCount (r : ImpactReport) : Nat :=
  r.newlyApproved + r.newlyDeclined + r.newlyReferred

end ImpactReport

namespace Simulation

/-- A simulation with nothing set. -/
def ofScorecard (card : Scorecard) : Simulation :=
  ⟨card, .standard, none⟩

/-- Decides an application as it is stored. -/
def decide (s : Simulation) (c : Configuration) (a : Application) : Except Failure Decided :=
  c.decide s.scorecard a.applicant a.context (Allotment.ofApplication s.split a)

/-! ### Traces -/

/-- The application with attributes replaced in the records that have them, each of which is
known to at least one. -/
def overridden (a : Application) (overrides : Dict Value) : Except Failure Application := do
  let (applicant, unknownToApplicant) ← (a.applicant.withOverrides overrides).mapError .data
  let (context, unknownToContext) ← (a.context.withOverrides overrides).mapError .data
  match unknownToApplicant.find? unknownToContext.contains with
  | some name => throw (.unknownOverride name)
  | none => return { a with applicant := applicant, context := context }

/-- The trace that a decision on an overridden application makes. -/
def traceOf (a : Application) (overrides : Dict Value) (d : Decided) : Trace where
  applicationId := a.id
  overrides := overrides
  storedDecision := a.storedDecision
  changed := a.storedDecision.any (· != d.outcome.decision)
  decided := d

def trace (s : Simulation) (c : Configuration) (a : Application) (overrides : Dict Value) :
    Except Failure Trace := do
  let b ← overridden a overrides
  let d ← s.decide c b
  return traceOf a overrides d

/-- A trace with the warnings of its decision. -/
def traceNoted (s : Simulation) (c : Configuration) (a : Application) (overrides : Dict Value) :
    Noted Failure Trace :=
  match overridden a overrides with
  | .error e => Noted.fail e
  | .ok b => ⟨c.decisionWarnings b.context (s.decide c b), s.trace c a overrides⟩

/-! ### Batches -/

def checkSize (s : Simulation) (batch : List Application) : Except Failure Unit :=
  if s.options.maxSize.toNat < batch.length then
    .error (.batchTooLarge batch.length s.options.maxSize.toNat)
  else .ok ()

/-- An application with what a replay makes of it. -/
structure Replayed where
  application : Application
  result : Except Failure Decision

/-- The share of `compared` that did not change; everything agrees where there is nothing to
compare. -/
def agreement (compared changed : Nat) : Float :=
  if compared = 0 then 1 else (compared - changed).toUInt64.toFloat / compared.toUInt64.toFloat

/-- The counters of a replay, and the entries it has listed. -/
structure ReplayCounters where
  evaluated : Nat
  /-- The decided applications that have a stored decision. -/
  compared : Nat
  storedCounts : Tally
  newCounts : Tally
  changed : Array OutcomeChange
  errors : Array BatchFailure

namespace ReplayCounters

def start : ReplayCounters :=
  ⟨0, 0, .zero, .zero, #[], #[]⟩

/-- Counts the stored decision of an application, if there is one, and lists it where another was
made. -/
def compare (k : ReplayCounters) (a : Application) (new : Decision) : ReplayCounters :=
  match a.storedDecision with
  | none => k
  | some old =>
    { k with
      compared := k.compared + 1
      storedCounts := k.storedCounts.count old
      changed := if old = new then k.changed else k.changed.push ⟨a.id, old, new⟩ }

/-- Counts one application. -/
def step (k : ReplayCounters) (row : Replayed) : ReplayCounters :=
  match row.result with
  | .error e => { k with errors := k.errors.push ⟨row.application.id, e.message⟩ }
  | .ok new =>
    { k with
      evaluated := k.evaluated + 1
      newCounts := k.newCounts.count new }.compare row.application new

/-- The counters after some applications. -/
def run (rows : List Replayed) : ReplayCounters :=
  rows.foldl step start

def report (k : ReplayCounters) (total : Nat) : ReplayReport where
  total := total
  evaluated := k.evaluated
  storedCounts := k.storedCounts
  newCounts := k.newCounts
  changed := k.changed.toList
  errors := k.errors.toList
  agreementRate := agreement k.compared k.changed.size

end ReplayCounters

/-- The report on replayed applications. -/
def replayReport (rows : List Replayed) : ReplayReport :=
  (ReplayCounters.run rows).report rows.length

/-- Decides an application again. -/
def again (s : Simulation) (c : Configuration) (a : Application) : Replayed :=
  ⟨a, (s.decide c a).map fun d => d.outcome.decision⟩

/-- Decides a batch again and compares with the stored decisions. -/
def replay (s : Simulation) (c : Configuration) (batch : List Application) :
    Except Failure ReplayReport := do
  s.checkSize batch
  return replayReport (batch.map (s.again c))

/-- An application with the decisions of two configurations. -/
structure Compared where
  application : Application
  old : Except Failure Decided
  new : Except Failure Decided

/-- The counters of an impact analysis, and the entries it has listed. -/
structure ImpactCounters where
  evaluated : Nat
  newlyApproved : Nat
  newlyDeclined : Nat
  newlyReferred : Nat
  unchanged : Nat
  changes : Array ImpactChange
  errors : Array BatchFailure

namespace ImpactCounters

def start : ImpactCounters :=
  ⟨0, 0, 0, 0, 0, #[], #[]⟩

/-- Counts one application of a kind. -/
def count (k : ImpactCounters) : ChangeKind → ImpactCounters
  | .newlyApproved => { k with newlyApproved := k.newlyApproved + 1 }
  | .newlyDeclined => { k with newlyDeclined := k.newlyDeclined + 1 }
  | .newlyReferred => { k with newlyReferred := k.newlyReferred + 1 }
  | .unchanged => { k with unchanged := k.unchanged + 1 }

/-- Counts an application that both configurations decide, and lists it unless they agree. -/
def classify (k : ImpactCounters) (a : Application) (old new : Decided) : ImpactCounters :=
  let kind := ChangeKind.classify old.outcome.decision new.outcome.decision
  let k := { k with evaluated := k.evaluated + 1 }.count kind
  if kind = .unchanged then k
  else
    { k with
      changes := k.changes.push
        { applicationId := a.id
          old := old.outcome.decision
          new := new.outcome.decision
          kind := kind
          oldTarget := old.outcome.target.id
          newTarget := new.outcome.target.id } }

/-- Lists an application that one of the configurations does not decide. -/
def fail (k : ImpactCounters) (a : Application) (side : String) (e : Failure) : ImpactCounters :=
  { k with errors := k.errors.push ⟨a.id, s!"{side} configuration: {e.message}"⟩ }

/-- Counts one application. -/
def step (k : ImpactCounters) (row : Compared) : ImpactCounters :=
  match row.old, row.new with
  | .ok old, .ok new => k.classify row.application old new
  | .error e, _ => k.fail row.application "old" e
  | .ok _, .error e => k.fail row.application "new" e

/-- The counters after some applications. -/
def run (rows : List Compared) : ImpactCounters :=
  rows.foldl step start

def report (k : ImpactCounters) (total : Nat) : ImpactReport where
  total := total
  evaluated := k.evaluated
  newlyApproved := k.newlyApproved
  newlyDeclined := k.newlyDeclined
  newlyReferred := k.newlyReferred
  unchanged := k.unchanged
  changes := k.changes.toList
  errors := k.errors.toList

end ImpactCounters

/-- The report on compared applications. -/
def impactReport (rows : List Compared) : ImpactReport :=
  (ImpactCounters.run rows).report rows.length

/-- Decides an application under two configurations. -/
def compare (s : Simulation) (old new : Configuration) (a : Application) : Compared :=
  ⟨a, s.decide old a, s.decide new a⟩

/-- Decides a batch under two configurations. -/
def impact (s : Simulation) (old new : Configuration) (batch : List Application) :
    Except Failure ImpactReport := do
  s.checkSize batch
  return impactReport (batch.map (s.compare old new))

end Simulation

end Lending
