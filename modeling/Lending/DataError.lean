/-! What can be wrong with a piece of data on its own. -/
namespace Lending

/-- What an attribute holds. -/
inductive Kind where
  | number
  | count
  | flag
  | text
  deriving DecidableEq, Repr

/-- What a value for an attribute of this kind has to be. -/
def Kind.expectation : Kind → String
  | .number => "number"
  | .count => "non-negative integer"
  | .flag => "bool"
  | .text => "string"

inductive DataError where
  /-- A value that does not coerce to the attribute's kind. -/
  | wrongKind (name : String) (expected : Kind) (actual : String)
  /-- A computed attribute is derived on reading and never stored. -/
  | computed (name : String)
  | unknownOperator (text : String)
  | unknownLogic (text : String)
  deriving DecidableEq, Repr

def DataError.message : DataError → String
  | .wrongKind name expected actual =>
    s!"Type error for attribute '{name}': expected {expected.expectation}, got {actual}"
  | .computed name => s!"Attribute is computed and cannot be set: {name}"
  | .unknownOperator text => s!"Invalid value: unknown comparison operator '{text}'"
  | .unknownLogic text => s!"Invalid value: unknown compound logic '{text}'"

end Lending
