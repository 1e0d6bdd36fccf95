import Lending.Policy.RuleDocument
import Lending.Strategy

/-! Strategies and assessments as policy documents write them. -/
namespace Lending

/-! ### Words -/

/-- The decision that a word under a member stands for. -/
def Decision.read (member s : String) : Except ReadError Decision :=
  match Text.keyword s with
  | "approve" => .ok .approve
  | "decline" => .ok .decline
  | "refer" => .ok .refer
  | other => .error (.invalidMember member (.unknownDecision other))

def Mode.read (s : String) : Except ReadError Mode :=
  match Text.keyword s with
  | "sequential" => .ok .sequential
  | "dual_path" => .ok .dualPath
  | "scoring" => .ok .scoring
  | "hybrid" => .ok .hybrid
  | other => .error (.invalidMember "evaluation_mode" (.unknownMode other))

/-! ### Scores -/

def Cutoff.read (d : Document) : Except ReadError Cutoff := do
  let band ← d.requiredText "band"
  let minScore ← d.requiredNumber "min_score"
  let outcome ← Decision.read "outcome" (← d.requiredText "outcome")
  return ⟨band, minScore, outcome⟩

/-- The bands of a strategy; none where there is no list. -/
def Cutoff.readList (d : Document) : Except ReadError (List Cutoff) :=
  ((d.optionalItems "score_cutoffs").getD []).mapM Cutoff.read

/-- A gate declines unless it says otherwise. -/
def Gate.read (d : Document) : Except ReadError Gate := do
  let minScore ← d.requiredNumber "min_score"
  let outcome ← d.optionalWord (Decision.read "fail_outcome") "fail_outcome"
  return ⟨minScore, outcome.getD .decline⟩

namespace Strategy

def readGate (d : Document) : Except ReadError (Option Gate) :=
  match d.present? "score_gate" with
  | none => .ok none
  | some gate => (Gate.read gate).map some

/-- The reason codes by rule id, of the members that are texts on both sides. -/
def readCodes (d : Document) : Dict String :=
  let members := ((d.get? "reason_code_map").bind Document.members?).getD []
  Dict.ofList <| members.filterMap fun m =>
    match m.1.text?, m.2.text? with
    | some id, some code => some (id, code)
    | _, _ => none

def knownMembers : List String :=
  ["id", "version", "name", "evaluation_mode", "knock_out_rules", "overlay_rules", "score_cutoffs",
    "reason_code_map", "score_gate"]

def read (d : Document) : Noted ReadError Strategy := do
  let id ← d.requiredText "id"
  Noted.warn (d.unknownMembers knownMembers s!"strategy '{id}'")
  let modeName ← d.requiredText "evaluation_mode"
  let mode ← Mode.read modeName
  let cutoffs ← Cutoff.readList d
  let gate ← readGate d
  let version ← d.optionalCount "version"
  let knockOuts ← Rule.readList d "knock_out_rules"
  let overlays ← Rule.readList d "overlay_rules"
  return {
    id := id
    version := version.getD 1
    name := d.optionalText "name"
    mode := mode
    knockOuts := knockOuts
    overlays := overlays
    cutoffs := cutoffs
    reasonCodes := readCodes d
    gate := gate }

end Strategy

namespace Assessment

def knownMembers : List String :=
  ["id", "name", "rules"]

def read (d : Document) : Noted ReadError Assessment := do
  let id ← d.requiredText "id"
  Noted.warn (d.unknownMembers knownMembers s!"assessment '{id}'")
  let rules ← Rule.readList d "rules"
  return ⟨id, d.optionalText "name", rules⟩

end Assessment

end Lending
