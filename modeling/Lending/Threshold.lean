import Lending.Document
import Lending.Operator

/-! Thresholds, and the comparison of an observed value with one.

A threshold is a range, a list or a scalar, and each operator takes one of these shapes. A
threshold of the wrong shape is a fault of the policy and an error; a value that cannot be
compared is no fault, and the comparison does not hold. -/
namespace Lending

/-- What an observed value is compared with. The ends of a range belong to it. -/
inductive Threshold where
  | range (min max : Float)
  | list (items : List Value)
  | scalar (v : Value)
  deriving Inhabited

namespace Threshold

def number (x : Float) : Threshold :=
  .scalar (.number x)

/-- The number of a numeric scalar. -/
def number? : Threshold → Option Float
  | .scalar v => v.number?
  | _ => none

/-- Inclusive bounds: a range, or a list of two numbers. -/
def bounds? : Threshold → Option (Float × Float)
  | .range min max => some (min, max)
  | .list [a, b] =>
    match a.number?, b.number? with
    | some min, some max => some (min, max)
    | _, _ => none
  | _ => none

def render : Threshold → String
  | .range min max => "[" ++ Value.numberText min ++ ", " ++ Value.numberText max ++ "]"
  | .list items => (Value.array items).render
  | .scalar v => v.render

/-- A value as a threshold: an array is a list, an object with numeric `min` and `max` a
range. -/
def ofValue : Value → Threshold
  | .array items => .list items
  | .object members =>
    match (Dict.get? members "min").bind Value.number?, (Dict.get? members "max").bind Value.number? with
    | some min, some max => .range min max
    | _, _ => .scalar (.object members)
  | v => .scalar v

/-- A document as a threshold: a mapping with numbers as `min` and `max` is a range, a sequence
a list. -/
def ofDocument (d : Document) : Threshold :=
  match (d.get? "min").bind Document.number?, (d.get? "max").bind Document.number? with
  | some min, some max => .range min max
  | _, _ =>
    match d with
    | .sequence items => .list (items.map Document.toValue)
    | d => .scalar d.toValue

/-! ### Faults -/

/-- Why a threshold does not suit its operator. -/
inductive Fault where
  | notNumeric
  | notScalar
  | notList
  | noBounds
  | crossedBounds
  deriving DecidableEq, Repr

def Fault.message : Fault → String
  | .notNumeric => "expected a numeric scalar threshold"
  | .notScalar => "expected a scalar threshold"
  | .notList => "expected a list threshold"
  | .noBounds => "expected two numeric bounds"
  | .crossedBounds => "lower bound exceeds upper bound"

structure Malformed where
  operator : Operator
  fault : Fault
  deriving DecidableEq, Repr

def Malformed.message (m : Malformed) : String :=
  s!"Malformed threshold for '{m.operator.name}': {m.fault.message}"

end Threshold

/-! ### Comparison -/

namespace Operator

/-- The order test of an ordering operator. -/
def orders : Operator → Float → Float → Bool
  | .gte, x, y => decide (y ≤ x)
  | .lte, x, y => decide (x ≤ y)
  | .gt, x, y => decide (y < x)
  | .lt, x, y => decide (x < y)
  | _, _, _ => false

/-- The comparison of a value that is there with a threshold. The threshold's shape is checked
before the value is looked at. -/
def holds (op : Operator) (actual : Value) (t : Threshold) : Except Threshold.Fault Bool :=
  match op with
  | .gte | .lte | .gt | .lt =>
    match t.number? with
    | none => .error .notNumeric
    | some limit => .ok (actual.number?.any (op.orders · limit))
  | .eq | .neq =>
    match t with
    | .scalar expected => .ok (actual.agrees expected == (op == .eq))
    | _ => .error .notScalar
  | .oneOf | .noneOf =>
    match t with
    | .list items => .ok (items.any (actual.agrees ·) == (op == .oneOf))
    | _ => .error .notList
  | .between =>
    match t.bounds? with
    | none => .error .noBounds
    | some (min, max) =>
      if max < min then .error .crossedBounds
      else .ok (actual.number?.any fun x => decide (min ≤ x) && decide (x ≤ max))

end Operator

namespace Value

/-- Compares an observed value with a threshold. Nothing holds of null. -/
def compare (actual : Value) (op : Operator) (t : Threshold) : Except Threshold.Malformed Bool :=
  match actual with
  | .null => .ok false
  | actual => (op.holds actual t).mapError (⟨op, ·⟩)

/-- Compares with a value in the place of a threshold, as tree conditions do. -/
def compareValue (actual : Value) (op : Operator) (expected : Value) :
    Except Threshold.Malformed Bool :=
  actual.compare op (.ofValue expected)

end Value

end Lending
