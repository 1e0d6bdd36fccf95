import Lending.Json.Reader
import Lending.Path
import Lending.Policy.Source
import Lending.Settings
import Lending.Settings.Ini
import Lending.Settings.Json5
import Lending.Settings.Ron
import Lending.Settings.Toml
import Lending.Settings.Yaml

/-! Settings files. What comes after the last point of its name says how a file is written. -/
namespace Lending.Settings

inductive Format where
  | toml
  | json
  | yaml
  | ini
  | ron
  | json5
  deriving DecidableEq, Repr

namespace Format

def all : List Format :=
  [toml, json, yaml, ini, ron, json5]

/-- What the names of files in a format end with. -/
def extensions : Format → List String
  | toml => ["toml"]
  | json => ["json"]
  | yaml => ["yaml", "yml"]
  | ini => ["ini"]
  | ron => ["ron"]
  | json5 => ["json5"]

def ofPath? (path : String) : Option Format :=
  (Path.extension? path).bind fun e => all.find? (·.extensions.contains e)

def readJson? (reals : Json.Conversion) (s : String) : Option (List (String × Setting)) := do
  match Setting.ofDocument (← Json.read s reals) with
  | .table entries => some entries
  | _ => none

/-- The entries of a text. -/
def read? (reals : Json.Conversion) : Format → String → Option (List (String × Setting))
  | toml => Toml.read?
  | json => readJson? reals
  | yaml => Yaml.read?
  | ini => Ini.read?
  | ron => Ron.read?
  | json5 => Json5.read?

end Format

/-- A text without the mark for the order of its bytes. -/
def unmarked (s : String) : String :=
  match s.toList with
  | '\ufeff' :: rest => String.ofList rest
  | _ => s

/-- The paths that a path without an extension may stand for. -/
def extendedPaths (path : String) : List String :=
  (Format.all.flatMap Format.extensions).map fun e => path ++ "." ++ e

/-- The first file that is there: the one with the path, or one of which only the extension is
missing in the path. -/
def findFile? (files : Files) (path : String) : Option (String × String) :=
  (path :: extendedPaths path).findSome? fun p => (files.text? p).map (p, ·)

/-- The entries of a file, if it is there and its format is known and kept. -/
def entriesOf? (reals : Json.Conversion) (files : Files) (path : String) :
    Option (List (String × Setting)) := do
  let (found, s) ← findFile? files path
  let f ← Format.ofPath? found
  f.read? reals (unmarked s)

/-- The settings in a file. -/
def ofFile? (files : Files) (path : String) (reals : Json.Conversion := Json.nearest) :
    Option Settings :=
  (entriesOf? reals files path).bind ofEntries?

end Lending.Settings
