import Lending.Form.Reports
import Lending.Json.Reader
import Lending.Path
import Lending.Settings

/-! The commands of the command line, as functions of the files they read.

Configurations are loaded first, then applications, then the command's own arguments are read;
the first fault ends a command. Applications and overrides are JSON, and their number literals are
converted in the way that a command is run with. -/
namespace Lending

/-- What ends a command: a message, and the failure behind it where there is one. -/
structure CommandFault where
  message : String
  cause : Option Failure

inductive Command where
  | trace (config application : String) (overrides : List String)
  | replay (config applications : String)
  | impact (old new applications : String)
  | route (config application : String)

namespace Command

/-- A failure that is a command's own message. -/
def plainFault (e : Failure) : CommandFault :=
  ⟨e.message, some e⟩

/-! ### Loading -/

def source (files : Files) (path : String) : Source :=
  (files path).getD .missing

/-- The set-up of an engine with a single configuration file. -/
def setup (files : Files) (settings : Settings) (path : String) : EngineSetup :=
  { sources := [source files path]
    treeId := settings.treeId
    defaultStrategy := settings.defaultStrategy
    scorecard := none
    split := none
    options := settings.batches }

def loadFault (path : String) (e : Failure) : CommandFault :=
  ⟨s!"Failed to load configuration from {path}", some e⟩

def loadEngine (files : Files) (settings : Settings) (path : String) : Except CommandFault Engine :=
  (setup files settings path).build.outcome.mapError (loadFault path)

def loadConfiguration (files : Files) (settings : Settings) (path : String) :
    Except CommandFault Configuration :=
  (setup files settings path).load.outcome.mapError (loadFault path)

/-- The text of a file. -/
def readFile (files : Files) (path : String) : Except CommandFault String :=
  match files.text? path with
  | some s => .ok s
  | none => .error ⟨s!"Failed to read {path}", none⟩

/-- An application in JSON. Of a member that it does not have, only the outline counts. -/
def application? (reals : Json.Conversion) (s : String) : Option Application :=
  (Json.outline s reals).bind Application.ofForm?

def applications? (reals : Json.Conversion) (s : String) : Option (List Application) :=
  (Json.outline s reals).bind (Form.list? Application.ofForm?)

def orFault {α : Type} (message : String) (a : Option α) : Except CommandFault α :=
  match a with
  | some a => .ok a
  | none => .error ⟨message, none⟩

def loadApplication (reals : Json.Conversion) (files : Files) (path : String) :
    Except CommandFault Application := do
  let s ← readFile files path
  orFault s!"Invalid application snapshot in {path}" (application? reals s)

/-- The applications of lines, one to a line; blank lines are passed over. -/
def linesFrom (reals : Json.Conversion) (path : String) (number : Nat) :
    List String → Except CommandFault (List Application)
  | [] => .ok []
  | line :: rest =>
    if Text.isBlankText line then linesFrom reals path (number + 1) rest
    else do
      let a ← orFault s!"Invalid application snapshot at {path}:{number}" (application? reals line)
      let others ← linesFrom reals path (number + 1) rest
      return a :: others

/-- Applications from a list, or one to a line in a file that says so. -/
def loadApplications (reals : Json.Conversion) (files : Files) (path : String) :
    Except CommandFault (List Application) := do
  let s ← readFile files path
  if Path.extension? path = some "jsonl" then linesFrom reals path 1 (Text.lines s)
  else orFault s!"Invalid application snapshots in {path}" (applications? reals s)

/-! ### Overrides -/

/-- The value of an override: JSON, or else the text itself. -/
def overrideValue (reals : Json.Conversion) (s : String) : Value :=
  match Json.read s reals with
  | some d => d.toValue
  | none => .text s

/-- An override that is written `name=value`. -/
def parseOverride (s : String) (reals : Json.Conversion := Json.nearest) :
    Except CommandFault (String × Value) :=
  match Text.splitOnce '=' s with
  | none => .error ⟨s!"Override '{s}' is not of the form name=value", none⟩
  | some (name, v) =>
    if Text.isBlankText name then .error ⟨s!"Override '{s}' has an empty name", none⟩
    else .ok (Text.trim name, overrideValue reals (Text.trim v))

/-- Overrides by name; of two for one name the later one counts. -/
def parseOverrides (reals : Json.Conversion) (raw : List String) :
    Except CommandFault (Dict Value) := do
  let entries ← raw.mapM (parseOverride · reals)
  return Dict.ofList entries

/-! ### Commands -/

/-- The files that a command reads. -/
def paths : Command → List String
  | .trace config application _ => [config, application]
  | .replay config applications => [config, applications]
  | .impact old new applications => [old, new, applications]
  | .route config application => [config, application]

def runTrace (reals : Json.Conversion) (files : Files) (settings : Settings)
    (config application : String) (raw : List String) : Except CommandFault Document := do
  let e ← loadEngine files settings config
  let a ← loadApplication reals files application
  let overrides ← parseOverrides reals raw
  let t ← (e.simulation.trace e.configuration a overrides).mapError fun failure =>
    (⟨s!"Failed to trace application '{a.id}'", some failure⟩ : CommandFault)
  return .record [("trace", t.form), ("explanation", (Explanation.staff t.decided.outcome).form)]

def runReplay (reals : Json.Conversion) (files : Files) (settings : Settings)
    (config applications : String) : Except CommandFault Document := do
  let e ← loadEngine files settings config
  let batch ← loadApplications reals files applications
  let report ← (e.simulation.replay e.configuration batch).mapError plainFault
  return report.form

def runImpact (reals : Json.Conversion) (files : Files) (settings : Settings)
    (old new applications : String) : Except CommandFault Document := do
  let oldConfiguration ← loadConfiguration files settings old
  let newConfiguration ← loadConfiguration files settings new
  let batch ← loadApplications reals files applications
  let simulation : Simulation :=
    { Simulation.ofScorecard .ofApplication with options := settings.batches }
  let report ← (simulation.impact oldConfiguration newConfiguration batch).mapError plainFault
  return report.form

/-- Routes an application and executes nothing. -/
def runRoute (reals : Json.Conversion) (files : Files) (settings : Settings)
    (config application : String) : Except CommandFault Document := do
  let c ← loadConfiguration files settings config
  let a ← loadApplication reals files application
  let routing ← (c.tree.route a.context).mapError fun e =>
    (⟨e.message, none⟩ : CommandFault)
  return routing.form

/-- What a command prints. -/
def run (files : Files) (settings : Settings) (c : Command)
    (reals : Json.Conversion := Json.nearest) : Except CommandFault Document :=
  match c with
  | .trace config application overrides =>
    runTrace reals files settings config application overrides
  | .replay config applications => runReplay reals files settings config applications
  | .impact old new applications => runImpact reals files settings old new applications
  | .route config application => runRoute reals files settings config application

end Command

end Lending
