import Lending.Arguments
import Lending.Json.Layout
import Lending.Settings.File

/-! The command line: reads the files that a command names and prints its report. Reports go to
the standard output, faults to the standard error. Number literals in JSON files and arguments are
scaled. -/
open Lending

namespace Lending.CommandLine

/-- Where the settings are looked for, without the extension. -/
def settingsPath : String :=
  "config/underwrite"

/-- The text of a file, if it can be read. -/
def readFile? (path : String) : IO (Option String) := do
  try
    let text ← IO.FS.readFile path
    return some text
  catch _ => return none

/-- The contents of the files that can be read. -/
def readFiles (paths : List String) : IO Files := do
  let texts ← paths.mapM fun path => do return (path, ← readFile? path)
  return fun path => ((texts.lookup path).join).map .text

/-- The settings of the settings file, or the standard ones where there is none that can be
read. -/
def readSettings : IO (Option Settings) := do
  let files ← readFiles (Settings.extendedPaths settingsPath)
  match Settings.entriesOf? Json.scaled files settingsPath with
  | some entries => return Settings.ofEntries? entries
  | none => return some .standard

def report (f : CommandFault) : IO Unit := do
  IO.eprintln s!"Error: {f.message}"
  match f.cause with
  | some cause => IO.eprintln s!"Caused by: {cause.message}"
  | none => return ()

def run (i : Invocation) : IO UInt32 := do
  match ← readSettings with
  | none =>
    IO.eprintln "Error: Failed to deserialize config"
    return 1
  | some settings =>
    let files ← readFiles i.command.paths
    match i.command.run files (i.apply settings) Json.scaled with
    | .ok d =>
      IO.println (Json.layOut 0 d)
      return 0
    | .error f =>
      report f
      return 1

end Lending.CommandLine

def main (arguments : List String) : IO UInt32 := do
  match Invocation.ofArguments arguments with
  | .ok i => CommandLine.run i
  | .error fault =>
    IO.eprintln s!"error: {fault.message}"
    return 2
