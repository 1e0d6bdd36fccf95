import Lending.Engine.Simulation
import Lending.Form.Members
import Lending.Settings.Address

/-! The settings of the command line.

Settings files are written by hand, so their scalars are taken for what they can be: a truth
value may be a number or a word, a number may be a text, and a text may be a number. -/
namespace Lending

inductive LogFormat where
  | pretty
  | json
  deriving DecidableEq, Repr

namespace LogFormat

def all : List LogFormat :=
  [pretty, json]

def name : LogFormat → String
  | pretty => "pretty"
  | json => "json"

end LogFormat

structure Settings where
  logFormat : LogFormat
  batches : BatchOptions
  /-- The tree to route with, where there are several. -/
  treeId : Option String
  /-- In the place of the tree's own default strategy. -/
  defaultStrategy : Option String
  deriving DecidableEq, Repr

namespace Settings

def standard : Settings :=
  ⟨.pretty, .standard, none, none⟩

/-! ### Lenient readings -/

/-- The truth value of a word. -/
def wordFlag? (s : String) : Option Bool :=
  match Text.lower s with
  | "1" | "true" | "on" | "yes" => some true
  | "0" | "false" | "off" | "no" => some false
  | _ => none

def flag? : Setting → Option Bool
  | .flag b => some b
  | .integer n => some (n != 0)
  | .real x => some (x != 0)
  | .text s => wordFlag? s
  | _ => none

/-- The number that a text's digits make, if it fits 64 bits. -/
def digits? (s : String) : Option Nat :=
  let digits := match s.toList with
    | '+' :: rest => rest
    | rest => rest
  let n := Number.digitsValue digits
  if digits.isEmpty || !digits.all Number.isDigit || UInt64.size ≤ n then none else some n

/-- The number of a word or a text of digits. -/
def wordSize? (s : String) : Option Nat :=
  match Text.lower s with
  | "true" | "on" | "yes" => some 1
  | "false" | "off" | "no" => some 0
  | _ => digits? s

/-- A size; a number with a fraction is rounded, and one out of range is the end of the range. -/
def size? : Setting → Option UInt64
  | .integer n => if 0 ≤ n ∧ n < UInt64.size then some (.ofNat n.toNat) else none
  | .flag b => some (.ofNat b.toNat)
  | .real x => some x.round.toUInt64
  | .text s => (wordSize? s).map .ofNat
  | _ => none

def text? : Setting → Option String
  | .text s => some s
  | .flag b => some (if b then "true" else "false")
  | .integer n => some n.repr
  | .real x => some (Number.text x)
  | _ => none

/-- A format by its name, in letters of any case. -/
def formatNamed? (s : String) : Option LogFormat :=
  LogFormat.all.find? (·.name == Text.lower s)

/-- The name of a format, or a table with nothing but such a name. -/
def logFormat? : Setting → Option LogFormat
  | .text s => formatNamed? s
  | .table [(name, _)] => formatNamed? name
  | _ => none

/-! ### Settings -/

/-- A setting that may be missing. -/
def orElse {α : Type} (read? : Setting → Option α) (missing : α) : Option Setting → Option α
  | none => some missing
  | some s => read? s

/-- A setting that may be missing or null. The outer `none` is a setting of the wrong kind. -/
def optional {α : Type} (read? : Setting → Option α) : Option Setting → Option (Option α)
  | none | some .null => some none
  | some s => (read? s).map some

/-- The settings in a table; names that are not known are passed over. -/
def ofTable? (t : Setting) : Option Settings := do
  let logFormat ← orElse logFormat? standard.logFormat (t.get? "log_format")
  let parallel ← orElse flag? standard.batches.parallel (t.get? "parallel")
  let maxSize ← orElse size? standard.batches.maxSize (t.get? "max_batch_size")
  let treeId ← optional text? (t.get? "tree_id")
  let defaultStrategy ← optional text? (t.get? "default_strategy")
  return ⟨logFormat, ⟨parallel, maxSize⟩, treeId, defaultStrategy⟩

/-- The settings in the entries of a file. -/
def ofEntries? (entries : List (String × Setting)) : Option Settings :=
  ofTable? (.ofEntries entries)

def form (s : Settings) : Document :=
  .record
    [("log_format", .text s.logFormat.name), ("parallel", .flag s.batches.parallel),
      ("max_batch_size", Form.ofNat s.batches.maxSize.toNat), ("tree_id", Form.orNull .text s.treeId),
      ("default_strategy", Form.orNull .text s.defaultStrategy)]

end Settings

end Lending
