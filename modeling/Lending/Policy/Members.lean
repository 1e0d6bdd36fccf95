import Lending.Document
import Lending.Policy.ReadError
import Lending.Text.Edit
import Lending.Warning

/-! The members of a policy document, each read as what it should be. An optional member that
is absent or null is none, and one of the wrong kind is an error; a text is the exception,
which is none wherever there is no scalar. -/
namespace Lending.Document

/-- A scalar's text: numbers and truth values are taken as they are written. A tag hides the
scalar. -/
def scalarText? : Document → Option String
  | .text s => some s
  | .integer n => some n.repr
  | .real x => some (Layout.marked.text x)
  | .flag b => some (if b then "true" else "false")
  | _ => none

def optionalText (d : Document) (member : String) : Option String :=
  (d.get? member).bind scalarText?

def requiredText (d : Document) (member : String) : Except ReadError String :=
  match d.optionalText member with
  | some s => .ok s
  | none => .error (.missingMember member)

/-- An optional member, read by `f`. -/
def optional {α : Type} (f : Document → Option α) (complaint : Complaint) (d : Document)
    (member : String) : Except ReadError (Option α) :=
  match d.present? member with
  | none => .ok none
  | some v =>
    match f v with
    | some a => .ok (some a)
    | none => .error (.invalidMember member complaint)

/-- A whole number that is written as an integer and fits 32 bits. -/
def count? (d : Document) : Option UInt32 :=
  d.natural?.bind fun n => if n < UInt32.size then some (UInt32.ofNat n) else none

def optionalCount (d : Document) (member : String) : Except ReadError (Option UInt32) :=
  d.optional count? .notCount member

def optionalFlag (d : Document) (member : String) : Except ReadError (Option Bool) :=
  d.optional flag? .notFlag member

def optionalNumber (d : Document) (member : String) : Except ReadError (Option Float) :=
  d.optional number? .notNumber member

def requiredNumber (d : Document) (member : String) : Except ReadError Float := do
  match ← d.optionalNumber member with
  | some x => return x
  | none => .error (.missingMember member)

/-- The items of a sequence; of anything else, none. -/
def optionalItems (d : Document) (member : String) : Option (List Document) :=
  (d.get? member).bind items?

/-- The members of a mapping, as values. A tag is an error. -/
def optionalValues (d : Document) (member : String) : Except ReadError (Dict Value) :=
  match d.get? member with
  | none | some .null => .ok []
  | some (.mapping members) => .ok (Dict.ofList (toMembers members))
  | some _ => .error (.invalidMember member .notMapping)

/-! ### Unknown members -/

/-- The names of a mapping's members. -/
def memberNames (d : Document) : List String :=
  (d.members?.getD []).filterMap fun m => m.1.text?

/-- A warning for every member that is not a known one, with the known name it is likely to
stand for. -/
def unknownMembers (d : Document) (known : List String) (context : String) : List Warning :=
  (d.memberNames.filter (· ∉ known)).map fun name =>
    .unknownMember name context (Text.nearest? 2 name known)

end Lending.Document
