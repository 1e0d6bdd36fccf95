import Lending.Document
import Lending.Text

/-! What stands in a settings file, whatever the file's format.

Settings have names, in tables that may nest. The case of the letters in names does not count:
names stand in lower case. -/
namespace Lending

inductive Setting where
  | null
  | flag (b : Bool)
  | integer (n : Int)
  | real (x : Float)
  | text (s : String)
  | list (items : List Setting)
  | table (entries : List (String × Setting))
  deriving Inhabited

namespace Setting

/-- The entries of a table; nothing else has any. -/
def entries : Setting → List (String × Setting)
  | .table es => es
  | _ => []

def get? (s : Setting) (name : String) : Option Setting :=
  s.entries.lookup name

/-- Entries with one of them replaced, or added at the end. -/
def replace (name : String) (v : Setting) : List (String × Setting) → List (String × Setting)
  | [] => [(name, v)]
  | (n, old) :: rest => if n = name then (n, v) :: rest else (n, old) :: replace name v rest

mutual

/-- Puts a setting into a table under a name. The entries of a table are put into the table
that has the name already. -/
def put (name : String) : Setting → Setting → Setting
  | .table incoming, t =>
    let old := (t.get? (Text.lower name)).getD (.table [])
    .table (replace (Text.lower name) (putAll incoming old) t.entries)
  | v, t => .table (replace (Text.lower name) v t.entries)

def putAll : List (String × Setting) → Setting → Setting
  | [], t => t
  | (name, v) :: rest, t => putAll rest (put name v t)

end

/-- Entries of which, under one name, the last one counts. -/
def distinct (entries : List (String × Setting)) : List (String × Setting) :=
  entries.foldl (fun es e => replace e.1 e.2 es) []

/-- The settings of a JSON document. Integers have 64 bits with a sign; others are real. -/
def ofDocument : Document → Setting := go
where
  go : Document → Setting
    | .null => .null
    | .flag b => .flag b
    | .integer n =>
      if Int64.minValue.toInt ≤ n ∧ n ≤ Int64.maxValue.toInt then .integer n
      else .real (Number.ofInt n)
    | .real x => .real x
    | .text s => .text s
    | .sequence items => .list (goItems items)
    | .mapping members => .table (distinct (goMembers members))
    | .tagged _ content => go content
  goItems : List Document → List Setting
    | [] => []
    | d :: rest => go d :: goItems rest
  goMembers : List (Document × Document) → List (String × Setting)
    | [] => []
    | (key, v) :: rest =>
      match key with
      | .text name => (name, go v) :: goMembers rest
      | _ => goMembers rest

end Setting

end Lending
