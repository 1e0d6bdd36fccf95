import Lending.Command

/-! The arguments of the command line.

Options stand before or after the command and carry their value in the next argument or after
an equals sign. `--tree`, `--json-logs` and `--sequential` go with every command and win over
the settings. -/
namespace Lending

/-- What is wrong with the arguments. -/
inductive UsageFault where
  | unexpected (argument : String)
  | withoutValue (option : String)
  | missingOption (option : String)
  | repeatedOption (option : String)
  | unknownCommand (name : String)
  | noCommand
  deriving DecidableEq, Repr

def UsageFault.message : UsageFault → String
  | .unexpected argument => s!"unexpected argument '{argument}'"
  | .withoutValue option => s!"a value is required for '--{option}'"
  | .missingOption option => s!"the option '--{option}' is required"
  | .repeatedOption option => s!"the option '--{option}' cannot be used more than once"
  | .unknownCommand name => s!"unrecognized command '{name}'"
  | .noCommand => "a command is required: trace, replay, impact or route"

/-- Arguments sorted by what they are, each kind in order. -/
structure Arguments where
  words : List String
  /-- Options with their values. -/
  options : List (String × String)
  flags : List String

/-- A command with what the arguments say about the settings. -/
structure Invocation where
  command : Command
  treeId : Option String
  jsonLogs : Bool
  sequential : Bool

namespace Arguments

def empty : Arguments :=
  ⟨[], [], []⟩

def flagNames : List String :=
  ["json-logs", "sequential"]

/-- The option that an argument names, with the value after an equals sign. -/
def option? (argument : String) : Option (String × Option String) :=
  match argument.toList with
  | '-' :: '-' :: c :: name =>
    let text := String.ofList (c :: name)
    match Text.splitOnce '=' text with
    | some (option, v) => some (option, some v)
    | none => some (text, none)
  | _ => none

/-- Sorts arguments. -/
def sort (a : Arguments) : List String → Except UsageFault Arguments
  | [] => .ok a
  | argument :: rest =>
    match option? argument, rest with
    | none, rest => sort { a with words := a.words ++ [argument] } rest
    | some (option, some v), rest => sort { a with options := a.options ++ [(option, v)] } rest
    | some (option, none), rest =>
      if option ∈ flagNames then sort { a with flags := a.flags ++ [option] } rest
      else
        match rest with
        | v :: rest => sort { a with options := a.options ++ [(option, v)] } rest
        | [] => .error (.withoutValue option)

def valuesOf (a : Arguments) (option : String) : List String :=
  (a.options.filter (·.1 == option)).map Prod.snd

/-- An option that is given once at most. -/
def optional (a : Arguments) (option : String) : Except UsageFault (Option String) :=
  match a.valuesOf option with
  | [] => .ok none
  | [v] => .ok (some v)
  | _ => .error (.repeatedOption option)

def required (a : Arguments) (option : String) : Except UsageFault String := do
  match ← a.optional option with
  | some v => return v
  | none => .error (.missingOption option)

/-- Options are of the command or go with every command. -/
def requireKnown (a : Arguments) (known : List String) : Except UsageFault Unit :=
  match a.options.find? fun o => o.1 ∉ known with
  | some (option, _) => .error (.unexpected ("--" ++ option))
  | none => .ok ()

def command (a : Arguments) : Except UsageFault Command := do
  match a.words with
  | [] => .error .noCommand
  | ["trace"] =>
    a.requireKnown ["tree", "config", "application", "set"]
    return .trace (← a.required "config") (← a.required "application") (a.valuesOf "set")
  | ["replay"] =>
    a.requireKnown ["tree", "config", "applications"]
    return .replay (← a.required "config") (← a.required "applications")
  | ["impact"] =>
    a.requireKnown ["tree", "old", "new", "applications"]
    return .impact (← a.required "old") (← a.required "new") (← a.required "applications")
  | ["route"] =>
    a.requireKnown ["tree", "config", "application"]
    return .route (← a.required "config") (← a.required "application")
  | [name] => .error (.unknownCommand name)
  | _ :: second :: _ => .error (.unexpected second)

end Arguments

namespace Invocation

/-- Reads the arguments of the command line. -/
def ofArguments (arguments : List String) : Except UsageFault Invocation := do
  let a ← Arguments.empty.sort arguments
  let command ← a.command
  let treeId ← a.optional "tree"
  return ⟨command, treeId, a.flags.contains "json-logs", a.flags.contains "sequential"⟩

/-- The settings with what the arguments say in place. -/
def apply (i : Invocation) (s : Settings) : Settings :=
  { s with
    logFormat := if i.jsonLogs then .json else s.logFormat
    batches := if i.sequential then { s.batches with parallel := false } else s.batches
    treeId := i.treeId <|> s.treeId }

end Invocation

end Lending
