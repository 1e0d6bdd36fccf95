import Lending.Strategy.Execution

/-! Explanations of an outcome: every step for the staff, the outcome and its reasons alone for
the applicant. -/
namespace Lending

inductive Audience where
  | staff
  | consumer
  deriving DecidableEq, Repr

def Audience.name : Audience → String
  | .staff => "staff"
  | .consumer => "consumer"

structure Explanation where
  audience : Audience
  decision : Decision
  headline : String
  lines : List String
  deriving DecidableEq, Repr

namespace Explanation

/-- Who decided, in which version and mode, and what. -/
def staffHeadline (o : Outcome) : String :=
  let version := match o.version with
    | some v => s!" v{v.toNat}"
    | none => ""
  let mode := match o.mode with
    | some m => s!" ({m.name})"
    | none => ""
  Text.capitals o.decision.name ++ " by " ++ o.target.render ++ version ++ mode

def stepLine (s : Step) : String :=
  s!"{s.number}. {s.name} [{s.outcome.name}] {s.detail}"

def scoreLine (o : Outcome) : List String :=
  match o.score, o.band with
  | some score, some band => ["Score " ++ Number.text score ++ " in band " ++ band]
  | some score, none => ["Score " ++ Number.text score]
  | none, _ => []

def reasonsLine (reasons : List String) : List String :=
  if reasons.isEmpty then [] else ["Reason codes: " ++ Text.joined ", " reasons]

/-- The steps in order, the score and the reasons. -/
def staff (o : Outcome) : Explanation where
  audience := .staff
  decision := o.decision
  headline := staffHeadline o
  lines := o.steps.map stepLine ++ scoreLine o ++ reasonsLine o.reasons

def consumerHeadline : Decision → String
  | .approve => "Your application has been approved."
  | .decline => "We are unable to approve your application."
  | .refer => "Your application needs further review."

/-- A reason to each line; an approval needs none. -/
def consumer (o : Outcome) : Explanation where
  audience := .consumer
  decision := o.decision
  headline := consumerHeadline o.decision
  lines := if o.decision = .approve then [] else o.reasons.map ("Reason: " ++ ·)

/-- The headline and the lines, one below the other. -/
def render (e : Explanation) : String :=
  Text.joined "\n" (e.headline :: e.lines)

end Explanation

end Lending
