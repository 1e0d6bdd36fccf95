import Lending.Number
import Lending.Settings.Entry
import Lending.Settings.Scanner

/-! Addresses of settings.

The names at the top of a settings file may be addresses: `a.b` is the entry `b` of the table
`a`, and `a[0]` is the first item of the list `a`. What is no address is a name as it stands. -/
namespace Lending

inductive Address where
  /-- A setting at the top of a file. -/
  | top (name : String)
  | entry (table : Address) (name : String)
  /-- A negative place counts from the end of the list. -/
  | item (list : Address) (place : Int)

namespace Address

/-! ### Reading -/

def isNameChar (c : Char) : Bool :=
  ('a' ≤ c && c ≤ 'z') || ('A' ≤ c && c ≤ 'Z') || Number.isDigit c || c == ' ' || c == '_' || c == '-'

def takeName : Scanner String := do
  let name ← Scanner.takeWhile isNameChar
  if name.isEmpty then Scanner.fault else return String.ofList name

def isBlank (c : Char) : Bool :=
  c == ' ' || c == '\t'

/-- The place in a list, between brackets. -/
def takePlace : Scanner Int := do
  Scanner.skipWhile isBlank
  let negative ← Scanner.passes "-"
  let digits ← Scanner.takeWhile Number.isDigit
  Scanner.skipWhile isBlank
  Scanner.expect "]"
  if digits.isEmpty then Scanner.fault
  else
    let n : Int := Number.digitsValue digits
    return if negative then -n else n

/-- A step into a table or a list, if there is one. -/
def takeStep : Scanner (Option (Address → Address)) := do
  if ← Scanner.passes "." then
    let name ← takeName
    return some (.entry · name)
  else if ← Scanner.passes "[" then
    let place ← takePlace
    return some (.item · place)
  else return none

def scan : Scanner Address := do
  let name ← takeName
  let steps ← Scanner.collect takeStep
  return steps.foldl (fun a step => step a) (.top name)

/-- The address that a name is. -/
def ofText (s : String) : Address :=
  (Scanner.run? scan s).getD (.top s)

/-! ### Writing -/

/-- Changes an item of a list, which is made long enough. -/
def editItem (f : Setting → Setting) : Nat → List Setting → List Setting
  | 0, [] => [f .null]
  | 0, s :: rest => f s :: rest
  | n + 1, [] => .null :: editItem f n []
  | n + 1, s :: rest => s :: editItem f n rest

/-- Changes the item at a place of a list; nothing else has items. -/
def editPlace (f : Setting → Setting) (place : Int) (s : Setting) : Setting :=
  let items := match s with
    | .list items => items
    | _ => []
  .list (editItem f (if place < 0 then items.length - place.natAbs else place.toNat) items)

/-- Changes the entry of a table; nothing else has entries. -/
def editEntry (f : Setting → Setting) (name : String) (s : Setting) : Setting :=
  .table (Setting.replace name (f ((s.get? name).getD .null)) s.entries)

/-- Changes what stands at an address, and makes the tables and lists on the way there. -/
def edit (f : Setting → Setting) : Address → Setting → Setting
  | .top name => editEntry f name
  | .entry table name => table.edit (editEntry f name)
  | .item list place => list.edit (editPlace f place)

/-- Puts a setting at an address. -/
def put (v : Setting) : Address → Setting → Setting
  | .top name => Setting.put name v
  | .entry table name => table.edit (Setting.put name v)
  | .item list place => list.edit (editPlace (fun _ => v) place)

end Address

/-- The settings of a file's entries, each put at its address. -/
def Setting.ofEntries (entries : List (String × Setting)) : Setting :=
  entries.foldl (fun t e => (Address.ofText e.1).put e.2 t) (.table [])

end Lending
