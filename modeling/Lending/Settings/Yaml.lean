import Lending.Settings.Entry
import Lending.Yaml.Stream

/-! Settings in YAML.

Settings follow the core schema, in which only the spelling in lower case makes a word null or
a truth value, and whatever reads as a number is one, `inf` and `nan` among it. An alias is
what its name stood for when that node was complete. -/
namespace Lending.Settings.Yaml

/-! ### Scalars -/

/-- A whole number, in the base that its start names. -/
def integer? (cs : List Char) : Option Int :=
  match cs with
  | '0' :: 'x' :: digits => Number.int64? 16 digits
  | '0' :: 'o' :: digits => Number.int64? 8 digits
  | '+' :: digits => Number.int64? 10 digits
  | digits => Number.int64? 10 digits

/-- Words for infinity and for what is not a number that settings have no number for. -/
def isPointWord (s : String) : Bool :=
  [".inf", ".Inf", ".INF", "+.inf", "+.Inf", "+.INF", "-.inf", "-.Inf", "-.INF", ".nan", ".NaN",
    ".NAN"].contains s

/-- A plain scalar, or a fault. -/
def ofPlain (s : String) : Option Setting :=
  match s with
  | "null" | "~" => some .null
  | "true" => some (.flag true)
  | "false" => some (.flag false)
  | s =>
    match integer? s.toList, Number.ofText? s with
    | some n, _ => some (.integer n)
    | none, some x => some (.real x)
    | none, none => if isPointWord s then none else some (.text s)

/-- A plain scalar with a tag. What does not suit a core tag is null, and any other tag makes a
text. -/
def ofTagged (tag s : String) : Option Setting :=
  match tag with
  | "tag:yaml.org,2002:bool" =>
    match s with
    | "true" => some (.flag true)
    | "false" => some (.flag false)
    | _ => some .null
  | "tag:yaml.org,2002:int" => some (((Number.int64? 10 s.toList).map .integer).getD .null)
  | "tag:yaml.org,2002:float" =>
    if isPointWord s then none else some (((Number.ofText? s).map .real).getD .null)
  | "tag:yaml.org,2002:null" => some .null
  | _ => some (.text s)

def ofScalar (tag : Option String) (s : String) (plain : Bool) : Option Setting :=
  match tag, plain with
  | _, false => some (.text s)
  | some tag, true => ofTagged tag s
  | none, true => if s.isEmpty then some .null else ofPlain s

/-! ### Nodes -/

/-- The name that a key is. -/
def name? : Setting → Option String
  | .text s => some s
  | .integer n => some n.repr
  | _ => none

/-- Whether two keys are the same; a number is not the text of its digits. -/
def sameKey : Setting → Setting → Bool
  | .text s, .text t => s == t
  | .integer m, .integer n => m == n
  | _, _ => false

def hasRepeatedKey : List (Setting × Setting) → Bool
  | [] => false
  | (key, _) :: rest => rest.any (sameKey key ·.1) || hasRepeatedKey rest

/-- The table of members, whose keys have to be names. -/
def ofMembers (members : List (Setting × Setting)) : Option Setting := do
  let entries ← members.mapM fun m => (name? m.1).map (·, m.2)
  if hasRepeatedKey members then none else return .table (Setting.distinct entries)

/-- A step of the reading; the state is what names stand for. -/
abbrev NodeReader := StateT (List (String × Setting)) Option

def bind (name : String) (s : Setting) : NodeReader Unit :=
  modify ((name, s) :: ·)

mutual

def ofNode : Yaml.NamedNode → NodeReader Setting
  | .scalar tag s plain => StateT.lift (ofScalar tag s plain)
  | .sequence _ items => return .list (← ofNodes items)
  | .mapping _ members => do
    let members ← ofNodePairs members
    StateT.lift (ofMembers members)
  | .anchored name content => do
    bind name .null
    let s ← ofNode content
    let s := if isLeftOut content then .text "" else s
    bind name s
    return s
  | .alias name => do
    let names ← get
    StateT.lift (names.lookup name)
where
  /-- A node of which there is only an anchor is an empty text. -/
  isLeftOut : Yaml.NamedNode → Bool
    | .scalar none "" true => true
    | _ => false

def ofNodes : List Yaml.NamedNode → NodeReader (List Setting)
  | [] => return []
  | n :: rest => do
    let s ← ofNode n
    return s :: (← ofNodes rest)

def ofNodePairs : List (Yaml.NamedNode × Yaml.NamedNode) → NodeReader (List (Setting × Setting))
  | [] => return []
  | (key, v) :: rest => do
    let key ← ofNode key
    let v ← ofNode v
    return (key, v) :: (← ofNodePairs rest)

end

/-- The entries of a text with one document at most, which is a mapping. -/
def read? (s : String) : Option (List (String × Setting)) := do
  match ← Yaml.nodes? s with
  | [] => return []
  | [n] =>
    match ← (ofNode n).run [] with
    | (.table entries, _) => return entries
    | _ => none
  | _ => none

end Lending.Settings.Yaml
