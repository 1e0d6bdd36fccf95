import Lending.Dict
import Lending.Number
import Lending.Text

/-! Values: what attributes hold and thresholds name.

Applications and policy documents meet in untyped values, so every comparison goes through
a coercion: `number?` reads numbers and numeric texts, `flag?` reads booleans and yes/no
words. A value that a coercion does not read takes no part in that kind of comparison. -/
namespace Lending

/-- An attribute's value. The members of an object stand in key order. -/
inductive Value where
  | null
  | flag (b : Bool)
  | number (x : Float)
  | text (s : String)
  | array (items : List Value)
  | object (members : List (String × Value))
  deriving Inhabited

namespace Value

/-! ### Coercions -/

/-- The finite number that a number or a numeric text stands for. -/
def number? : Value → Option Float
  | .number x => if x.isFinite then some x else none
  | .text s => (Number.ofText? (Text.trim s)).filter Float.isFinite
  | _ => none

/-- The truth value that a boolean or a yes/no word stands for. -/
def flag? : Value → Option Bool
  | .flag b => some b
  | .text s =>
    match Text.keyword s with
    | "true" | "yes" => some true
    | "false" | "no" => some false
    | _ => none
  | _ => none

def text? : Value → Option String
  | .text s => some s
  | _ => none

/-- Null, a blank text and an empty array say nothing about the applicant. -/
def isMissing : Value → Bool
  | .null => true
  | .text s => Text.isBlankText s
  | .array items => items.isEmpty
  | _ => false

def kindName : Value → String
  | .null => "null"
  | .flag _ => "bool"
  | .number _ => "number"
  | .text _ => "string"
  | .array _ => "array"
  | .object _ => "object"

/-! ### Equality across kinds -/

/-- By truth value when one side is a boolean, exact between texts. -/
def equalsByKind (a b : Value) : Bool :=
  match a, b with
  | .flag x, b => b.flag? == some x
  | a, .flag y => a.flag? == some y
  | .text s, .text t => s == t
  | _, _ => false

/-- Numeric when both sides coerce to numbers, otherwise by kind. -/
def looselyEquals (a b : Value) : Bool :=
  match a.number?, b.number? with
  | some x, some y => x == y
  | _, _ => a.equalsByKind b

/-- Loose equality, or texts that differ only in case and outer blanks. -/
def agrees (actual expected : Value) : Bool :=
  actual.looselyEquals expected ||
    match actual, expected with
    | .text s, .text t => Text.sameLetters (Text.trim s) (Text.trim t)
    | _, _ => false

/-! ### Text -/

/-- Zero is written without a sign. -/
def numberText (x : Float) : String :=
  if x == 0 then "0" else Number.text x

mutual

/-- The text of a value in messages. -/
def render : Value → String
  | .null => "null"
  | .flag b => if b then "true" else "false"
  | .number x => numberText x
  | .text s => s
  | .array items => "[" ++ Text.joined ", " (renderItems items) ++ "]"
  | .object members => "\x7b" ++ Text.joined ", " (renderMembers members) ++ "\x7d"

def renderItems : List Value → List String
  | [] => []
  | v :: rest => v.render :: renderItems rest

def renderMembers : List (String × Value) → List String
  | [] => []
  | (key, v) :: rest => (key ++ ": " ++ v.render) :: renderMembers rest

end

end Value

end Lending
