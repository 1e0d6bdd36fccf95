import Lending.DataError
import Lending.Value

/-! Records of attributes.

An application comes as flat records whose attributes are a closed set. A record is a function
from its stored attributes to what they hold, typed by the attribute's kind, so reading,
writing and overriding are written once for all kinds of records. Computed attributes are
numbers derived from the stored ones; they can be read by name like any other, never written. -/
namespace Lending

/-- The values an attribute of a kind can hold. -/
def Kind.Carrier : Kind → Type
  | .number => Float
  | .count => UInt32
  | .flag => Bool
  | .text => String

namespace Kind

def toValue : (k : Kind) → k.Carrier → Value
  | .number, (x : Float) => .number x
  | .count, (n : UInt32) => .number n.toFloat
  | .flag, (b : Bool) => .flag b
  | .text, (s : String) => .text s

/-- A whole number from zero to the largest count. -/
def count? (x : Float) : Option UInt32 :=
  if 0 ≤ x ∧ Number.isWhole x ∧ x ≤ 4294967295 then some x.toUInt32 else none

/-- Numbers and truth values are taken for a text as they are shown. -/
def text? : Value → Option String
  | .text s => some s
  | .number x => some (Value.numberText x)
  | .flag b => some (Value.flag b).render
  | _ => none

/-- What a value gives for an attribute of this kind. -/
def ofValue? : (k : Kind) → Value → Option k.Carrier
  | .number, v => v.number?
  | .count, v => v.number?.bind count?
  | .flag, v => v.flag?
  | .text, v => text? v

end Kind

/-- The stored attributes of one kind of record. -/
class StoredAttributes (S : Type) where
  decEq : DecidableEq S
  /-- In the order of declaration. -/
  all : List S
  name : S → String
  kind : S → Kind

instance (S : Type) [StoredAttributes S] : DecidableEq S :=
  StoredAttributes.decEq

/-- What the stored attributes hold; `none` where nothing is known. -/
structure Record (S : Type) [StoredAttributes S] where
  get : (a : S) → Option (StoredAttributes.kind a).Carrier

namespace Record
variable {S : Type} [StoredAttributes S]

def empty : Record S :=
  ⟨fun _ => none⟩

instance : Inhabited (Record S) :=
  ⟨empty⟩

def put (r : Record S) (a : S) (v : Option (StoredAttributes.kind a).Carrier) : Record S :=
  ⟨fun b => if h : b = a then h ▸ v else r.get b⟩

@[ext] theorem ext {r r' : Record S} (h : ∀ a, r.get a = r'.get a) : r = r' := by
  cases r
  cases r'
  exact congrArg Record.mk (funext h)

@[simp] theorem get_put_self (r : Record S) (a : S) (v : Option (StoredAttributes.kind a).Carrier) :
    (r.put a v).get a = v := by
  simp [put]

theorem get_put_of_ne (r : Record S) {a b : S} (h : b ≠ a)
    (v : Option (StoredAttributes.kind a).Carrier) : (r.put a v).get b = r.get b := by
  simp [put, h]

end Record

/-- The attributes that are computed from a record. -/
class ComputedAttributes (S : Type) [StoredAttributes S] (C : outParam Type) where
  all : List C
  name : C → String
  value : C → Record S → Option Float

/-- An attribute that can be looked up: stored or computed. -/
inductive Attribute (S C : Type) where
  | stored (a : S)
  | computed (c : C)
  deriving DecidableEq

namespace Attribute
variable {S C : Type} [StoredAttributes S] [ComputedAttributes S C]

/-- Every attribute, the stored ones first. -/
def all : List (Attribute S C) :=
  (StoredAttributes.all.map stored) ++ (ComputedAttributes.all S).map computed

def name : Attribute S C → String
  | stored a => StoredAttributes.name a
  | computed c => ComputedAttributes.name S c

def isComputed : Attribute S C → Bool
  | stored _ => false
  | computed _ => true

/-- The attribute of a name, outer blanks apart. -/
def ofName? (name : String) : Option (Attribute S C) :=
  all.find? fun a => a.name == Text.trim name

end Attribute

namespace Record
variable {S C : Type} [StoredAttributes S] [ComputedAttributes S C]

/-- What an attribute shows; null where nothing is known. -/
def value (r : Record S) : Attribute S C → Value
  | .stored a =>
    match r.get a with
    | some v => (StoredAttributes.kind a).toValue v
    | none => .null
  | .computed c =>
    match ComputedAttributes.value c r with
    | some x => .number x
    | none => .null

/-- The value under a name, if the record has an attribute of that name. -/
def lookup (r : Record S) (name : String) : Option Value :=
  (Attribute.ofName? name : Option (Attribute S C)).map r.value

/-- Writes an attribute; null clears it. -/
def set (r : Record S) (a : Attribute S C) (v : Value) : Except DataError (Record S) :=
  match a, v with
  | .computed c, _ => .error (.computed (ComputedAttributes.name S c))
  | .stored a, .null => .ok (r.put a none)
  | .stored a, v =>
    match (StoredAttributes.kind a).ofValue? v with
    | some x => .ok (r.put a (some x))
    | none => .error (.wrongKind (StoredAttributes.name a) (StoredAttributes.kind a) v.kindName)

/-- Writes the attribute of a name; `none` when there is no such attribute. -/
def override (r : Record S) (name : String) (v : Value) : Except DataError (Option (Record S)) :=
  match (Attribute.ofName? name : Option (Attribute S C)) with
  | some a => (r.set a v).map some
  | none => .ok none

/-- A copy with the named attributes replaced one after the other, and the names that are none
of this record's, in order. -/
def withOverrides (r : Record S) : List (String × Value) → Except DataError (Record S × List String)
  | [] => .ok (r, [])
  | (name, v) :: rest => do
    match ← r.override name v with
    | some r => withOverrides r rest
    | none =>
      let (r, unknown) ← withOverrides r rest
      return (r, name :: unknown)

end Record

end Lending
