import Lending.Document

/-! What a scalar stands for.

A plain scalar is null, a truth value, an integer, a number or else a text; a quoted one is a
text. Integers have at most 64 bits. A longer one of up to 128 bits is refused, and beyond
that it is a number like any other. -/
namespace Lending.Yaml

def isNull (s : String) : Bool :=
  s == "null" || s == "Null" || s == "NULL" || s == "~"

def flag? (s : String) : Option Bool :=
  match s with
  | "true" | "True" | "TRUE" => some true
  | "false" | "False" | "FALSE" => some false
  | _ => none

/-! ### Integers -/

/-- A whole number without its sign: decimal, or in the base that its start names. -/
def magnitude? : List Char → Option Nat
  | '0' :: 'x' :: digits => Number.natural? 16 digits
  | '0' :: 'o' :: digits => Number.natural? 8 digits
  | '0' :: 'b' :: digits => Number.natural? 2 digits
  | digits => Number.natural? 10 digits

/-- A decimal number that starts with a needless zero, which is a text. -/
def hasLeadingZero (cs : List Char) : Bool :=
  let digits := (Number.splitSign cs).2
  1 < digits.length && digits.head? == some '0' && digits.all Number.isDigit

/-- A whole number of any size, and whether it has a minus sign. -/
def whole? (cs : List Char) : Option (Bool × Nat) :=
  if hasLeadingZero cs then none
  else
    let (negative, rest) := Number.splitSign cs
    (magnitude? rest).map (negative, ·)

/-- What a whole number comes to; `none` when it is no whole number as far as YAML is concerned,
and a fault when it is too long. -/
def integer? (cs : List Char) : Option (Option Document) :=
  match whole? cs with
  | none => none
  | some (false, n) =>
    if n < Nat.pow 2 64 then some (some (.integer n))
    else if n < Nat.pow 2 128 then some none else none
  | some (true, n) =>
    if n ≤ Nat.pow 2 63 then some (some (.integer (-n)))
    else if n ≤ Nat.pow 2 127 then some none else none

/-! ### Numbers -/

/-- A number: a decimal, or a word for infinity or for what is not a number. -/
def real? (s : String) : Option Float :=
  match s with
  | ".inf" | ".Inf" | ".INF" | "+.inf" | "+.Inf" | "+.INF" => some (1 / 0)
  | "-.inf" | "-.Inf" | "-.INF" => some (-(1 / 0))
  | ".nan" | ".NaN" | ".NAN" => some (0 / 0)
  | s => (Number.ofText? s).filter Float.isFinite

/-! ### Scalars -/

/-- The document of a plain scalar, or a fault. -/
def ofPlain (s : String) : Option Document :=
  if s.isEmpty || isNull s then some .null
  else
    match flag? s, integer? s.toList with
    | some b, _ => some (.flag b)
    | none, some d => d
    | none, none =>
      if hasLeadingZero s.toList then some (.text s)
      else
        match real? s with
        | some x => some (.real x)
        | none => some (.text s)

/-- The document of a scalar without a tag. -/
def ofScalar (s : String) (plain : Bool) : Option Document :=
  if plain then ofPlain s else some (.text s)

/-- The document of a scalar with a tag that is not an application's own. Four of the core tags
ask for a reading, and any other tag makes a text. -/
def ofTagged (tag s : String) : Option Document :=
  match tag with
  | "tag:yaml.org,2002:bool" => (flag? s).map .flag
  | "tag:yaml.org,2002:int" => (integer? s.toList).bind id
  | "tag:yaml.org,2002:float" => (real? s).map .real
  | "tag:yaml.org,2002:null" => if isNull s then some .null else none
  | _ => some (.text s)

end Lending.Yaml
