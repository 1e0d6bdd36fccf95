import Lending.Value

/-! Documents: the data that a JSON or YAML text holds.

A document keeps what the readers of policies care about and a `Value` does not: whether a
number was written as an integer, the order of a mapping's members, keys that are not texts,
and tags. Most questions look through tags (`untagged`); the few that do not match on the
document itself. -/
namespace Lending

/-- Parsed data. A mapping lists its members in the order of the text. -/
inductive Document where
  | null
  | flag (b : Bool)
  | integer (n : Int)
  | real (x : Float)
  | text (s : String)
  | sequence (items : List Document)
  | mapping (members : List (Document × Document))
  | tagged (tag : String) (content : Document)
  deriving Inhabited

namespace Document

/-- A mapping with texts as keys. -/
def record (members : List (String × Document)) : Document :=
  .mapping (members.map fun m => (.text m.1, m.2))

/-! ### Questions that look through tags -/

def untagged : Document → Document
  | .tagged _ content => content.untagged
  | d => d

def isNull (d : Document) : Bool :=
  match d.untagged with
  | .null => true
  | _ => false

def text? (d : Document) : Option String :=
  match d.untagged with
  | .text s => some s
  | _ => none

def flag? (d : Document) : Option Bool :=
  match d.untagged with
  | .flag b => some b
  | _ => none

def number? (d : Document) : Option Float :=
  match d.untagged with
  | .integer n => some (Number.ofInt n)
  | .real x => some x
  | _ => none

/-- A whole number that is written as an integer. -/
def natural? (d : Document) : Option Nat :=
  match d.untagged with
  | .integer n => if 0 ≤ n then some n.toNat else none
  | _ => none

def items? (d : Document) : Option (List Document) :=
  match d.untagged with
  | .sequence items => some items
  | _ => none

def members? (d : Document) : Option (List (Document × Document)) :=
  match d.untagged with
  | .mapping members => some members
  | _ => none

/-- The member of a mapping under a key that is a text without a tag. -/
def memberOf? : List (Document × Document) → String → Option Document
  | [], _ => none
  | (.text k, v) :: rest, key => if k = key then some v else memberOf? rest key
  | _ :: rest, key => memberOf? rest key

def get? (d : Document) (key : String) : Option Document :=
  d.members?.bind (memberOf? · key)

/-- The member under a key, unless it is null. -/
def present? (d : Document) (key : String) : Option Document :=
  match d.get? key with
  | none | some .null => none
  | some v => some v

/-! ### As a value -/

mutual

/-- The value of a document: tags are dropped, and so are members whose key is not a text. Of
two members under one key the later one counts. -/
def toValue : Document → Value
  | .null => .null
  | .flag b => .flag b
  | .integer n => .number (Number.ofInt n)
  | .real x => .number x
  | .text s => .text s
  | .sequence items => .array (toValues items)
  | .mapping members => .object (Dict.ofList (toMembers members))
  | .tagged _ content => content.toValue

def toValues : List Document → List Value
  | [] => []
  | d :: rest => d.toValue :: toValues rest

def toMembers : List (Document × Document) → List (String × Value)
  | [] => []
  | (key, v) :: rest =>
    match key.text? with
    | some k => (k, v.toValue) :: toMembers rest
    | none => toMembers rest

end

mutual

/-- The document that shows a value. -/
def ofValue : Value → Document
  | .null => .null
  | .flag b => .flag b
  | .number x => .real x
  | .text s => .text s
  | .array items => .sequence (ofValues items)
  | .object members => .mapping (ofMembers members)

def ofValues : List Value → List Document
  | [] => []
  | v :: rest => ofValue v :: ofValues rest

def ofMembers : List (String × Value) → List (Document × Document)
  | [] => []
  | (key, v) :: rest => (.text key, ofValue v) :: ofMembers rest

end

/-! ### Same keys -/

mutual

/-- Whether two documents are the same key of a mapping. Numbers of different kinds are
different, a not-a-number is itself, and a mapping is the same in any order. -/
def same : Document → Document → Bool
  | .null, .null => true
  | .flag a, .flag b => a == b
  | .integer m, .integer n => m == n
  | .real x, .real y => x == y || (x.isNaN && y.isNaN)
  | .text s, .text t => s == t
  | .sequence xs, .sequence ys => sameItems xs ys
  | .mapping ms, .mapping ns => ms.length == ns.length && sameMembers ms ns
  | .tagged s a, .tagged t b => s == t && a.same b
  | _, _ => false

def sameItems : List Document → List Document → Bool
  | [], [] => true
  | x :: xs, y :: ys => x.same y && sameItems xs ys
  | _, _ => false

/-- Every member of the first mapping is one of the second. -/
def sameMembers : List (Document × Document) → List (Document × Document) → Bool
  | [], _ => true
  | (key, v) :: rest, ns => ns.any (fun n => key.same n.1 && v.same n.2) && sameMembers rest ns

end

end Document

end Lending
