import Lending.Document
import Lending.Dict

/-! Forms: how the values of the domain stand in documents when they are stored or exchanged.

A structure's form is a mapping from the names of its members. Members that are not known are
passed over; an optional member may be absent or null and is left out when there is nothing to
say. A structure is also read from the sequence of its members. Forms are read strictly: a
member of the wrong kind has no reading, and neither has a structure with one. -/
namespace Lending.Form

/-! ### Reading scalars -/

def text? : Document → Option String
  | .text s => some s
  | _ => none

def flag? : Document → Option Bool
  | .flag b => some b
  | _ => none

/-- A number, also one written as an integer. -/
def number? : Document → Option Float
  | .integer n => some (Number.ofInt n)
  | .real x => some x
  | _ => none

/-- A whole number below `bound`, written as an integer. -/
def natural? (bound : Nat) : Document → Option Nat
  | .integer n => if 0 ≤ n ∧ n < bound then some n.toNat else none
  | _ => none

def count? (d : Document) : Option UInt32 :=
  (natural? UInt32.size d).map UInt32.ofNat

/-- A name, or a mapping from nothing but a name to null. -/
def word? : Document → Option String
  | .text s => some s
  | .mapping [(.text s, .null)] => some s
  | _ => none

/-- A name inside a tagged type, where the mapping may lead to an empty mapping as well. -/
def taggedWord? : Document → Option String
  | .mapping [(.text s, .mapping [])] => some s
  | d => word? d

/-- One of a closed set of names. -/
def name? {α : Type} (all : List α) (nameOf : α → String) (d : Document) : Option α :=
  (word? d).bind fun s => all.find? (nameOf · == s)

/-- One of a closed set of names, inside a tagged type. -/
def taggedName? {α : Type} (all : List α) (nameOf : α → String) (d : Document) : Option α :=
  (taggedWord? d).bind fun s => all.find? (nameOf · == s)

/-! ### Reading collections -/

def list? {α : Type} (f : Document → Option α) : Document → Option (List α)
  | .sequence items => items.mapM f
  | _ => none

/-- The entry that a mapping's member makes. -/
def entryOf? {α : Type} (f : Document → Option α) (m : Document × Document) : Option (String × α) := do
  let key ← text? m.1
  let v ← f m.2
  return (key, v)

/-- A mapping from texts; of two members under one text the later one counts. -/
def dict? {α : Type} (f : Document → Option α) : Document → Option (Dict α)
  | .mapping members => (members.mapM (entryOf? f)).map Dict.ofList
  | _ => none

/-! ### Reading structures -/

/-- The members of a structure, by name. -/
structure Members where
  get? : String → Option Document

/-- How often a name stands among members. -/
def occurrences (name : String) (members : List (Document × Document)) : Nat :=
  (members.filter fun m => text? m.1 == some name).length

/-- The members of a structure with these names: of a mapping from texts in which none of them
stands twice, or of a sequence that is not longer than the names. -/
def members? (names : List String) : Document → Option Members
  | .mapping members =>
    if (members.all fun m => (text? m.1).isSome) && names.all fun name => occurrences name members ≤ 1
    then some ⟨Document.memberOf? members⟩
    else none
  | .sequence items =>
    if items.length ≤ names.length then some ⟨fun name => (names.zip items).lookup name⟩ else none
  | _ => none

namespace Members
variable {α : Type}

def required (m : Members) (f : Document → Option α) (name : String) : Option α :=
  (m.get? name).bind f

/-- A member that may be absent or null. The outer `none` is a member of the wrong kind. -/
def optional (m : Members) (f : Document → Option α) (name : String) : Option (Option α) :=
  match m.get? name with
  | none | some .null => some none
  | some d => (f d).map some

/-- A member that may be absent. -/
def orElse (m : Members) (f : Document → Option α) (name : String) (missing : α) : Option α :=
  match m.get? name with
  | none => some missing
  | some d => f d

end Members

/-- A variant of a tagged type: its tag, and the rest of the members. -/
structure Tagged where
  tag : Document
  rest : Document

/-- Takes the tag out of a mapping, or off the front of a sequence. -/
def tagged? (name : String) : Document → Option Tagged
  | .mapping members =>
    match members.filter fun m => text? m.1 == some name with
    | [(_, tag)] => some ⟨tag, .mapping (members.filter fun m => text? m.1 != some name)⟩
    | _ => none
  | .sequence (tag :: rest) => some ⟨tag, .sequence rest⟩
  | _ => none

/-! ### Writing -/

/-- A member that is left out when there is nothing to say. -/
def optional {α : Type} (name : String) (f : α → Document) (v : Option α) :
    List (String × Document) :=
  match v with
  | some a => [(name, f a)]
  | none => []

/-- A member that is left out when the list is empty. -/
def unlessEmpty {α β : Type} (name : String) (f : List α → β) (items : List α) : List (String × β) :=
  if items.isEmpty then [] else [(name, f items)]

def ofTexts (texts : List String) : Document :=
  .sequence (texts.map .text)

def ofList {α : Type} (f : α → Document) (items : List α) : Document :=
  .sequence (items.map f)

def ofDict {α : Type} (f : α → Document) (d : Dict α) : Document :=
  .record (d.map fun e => (e.1, f e.2))

def ofCount (n : UInt32) : Document :=
  .integer n.toNat

def ofNat (n : Nat) : Document :=
  .integer n

/-- A value that may be null. -/
def orNull {α : Type} (f : α → Document) (v : Option α) : Document :=
  match v with
  | some a => f a
  | none => .null

end Lending.Form
