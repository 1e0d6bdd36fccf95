import Lending.DataError
import Lending.Text

/-! The operators that rules and tree conditions compare with, and the two ways in which
several comparisons are combined. -/
namespace Lending

inductive Operator where
  | gte
  | lte
  | gt
  | lt
  | eq
  | neq
  | oneOf
  | noneOf
  | between
  deriving DecidableEq, Repr

namespace Operator

def all : List Operator :=
  [.gte, .lte, .gt, .lt, .eq, .neq, .oneOf, .noneOf, .between]

/-- Orders numbers. -/
def isOrdering : Operator → Bool
  | .gte | .lte | .gt | .lt => true
  | _ => false

/-- Takes a list. -/
def isMembership : Operator → Bool
  | .oneOf | .noneOf => true
  | _ => false

def name : Operator → String
  | .gte => "gte"
  | .lte => "lte"
  | .gt => "gt"
  | .lt => "lt"
  | .eq => "eq"
  | .neq => "neq"
  | .oneOf => "in"
  | .noneOf => "not_in"
  | .between => "between"

/-- How the operator is written in explanations. -/
def symbol : Operator → String
  | .gte => ">="
  | .lte => "<="
  | .gt => ">"
  | .lt => "<"
  | .eq => "=="
  | .neq => "!="
  | .oneOf => "in"
  | .noneOf => "not in"
  | .between => "between"

/-- The operator that a name or symbol stands for. -/
def ofKeyword? : String → Option Operator
  | "gte" | "ge" | ">=" => some .gte
  | "lte" | "le" | "<=" => some .lte
  | "gt" | ">" => some .gt
  | "lt" | "<" => some .lt
  | "eq" | "==" | "=" => some .eq
  | "neq" | "ne" | "!=" => some .neq
  | "in" => some .oneOf
  | "not_in" | "nin" => some .noneOf
  | "between" => some .between
  | _ => none

/-- Reads an operator in any case and with outer blanks. -/
def ofText (s : String) : Except DataError Operator :=
  match ofKeyword? (Text.keyword s) with
  | some op => .ok op
  | none => .error (.unknownOperator (Text.keyword s))

theorem ofKeyword?_name (op : Operator) : ofKeyword? op.name = some op := by
  cases op <;> rfl

end Operator

/-- How several comparisons make one. -/
inductive Logic where
  | and
  | or
  deriving DecidableEq, Repr

namespace Logic

def all : List Logic :=
  [.and, .or]

def name : Logic → String
  | .and => "and"
  | .or => "or"

/-- Of no comparisons, `and` holds and `or` does not. -/
def combine (l : Logic) (results : List Bool) : Bool :=
  match l with
  | .and => results.all id
  | .or => results.any id

def ofText (s : String) : Except DataError Logic :=
  match Text.keyword s with
  | "and" | "all" => .ok .and
  | "or" | "any" => .ok .or
  | other => .error (.unknownLogic other)

end Logic

end Lending
