import Lending.Document

/-! Number literals in JSON texts.

A literal has a sign or none, digits, and maybe a point with more digits and an exponent. Whole
numbers that 64 bits hold are read as they are. Which double any other literal stands for is not
said by JSON: readers have their own `Conversion`. One of them, `nearest`, rounds once. Another,
`scaled`, takes the digits for a whole number, as far as 64 bits go, and multiplies it by a power of
ten or divides it by one. That is quicker, but each of its steps rounds, so the double may be next
to the nearest one. -/
namespace Lending.Json

/-- The mark for a scalar without a value. No form has a reading for it. -/
def unreadable : Document :=
  .tagged "unreadable" .null

/-! ### Conversions -/

/-- A number literal without its sign. -/
structure Literal where
  whole : List Char
  /-- The digits after the point. -/
  places : List Char
  exponent : Int
  deriving DecidableEq, Repr

/-- The magnitude that a literal stands for, if the doubles reach it. -/
abbrev Conversion := Literal → Option Float

/-- A number, unless it is beyond the doubles. -/
def finite? (x : Float) : Option Float :=
  if x.isFinite then some x else none

/-- The nearest double. -/
def nearest : Conversion := fun l =>
  finite? (Number.ofDecimal
    ⟨Number.digitsValue (l.whole ++ l.places), l.exponent - l.places.length⟩)

/-- Puts digits behind a number as long as 64 bits hold it, and tells which digits are left. -/
def withDigits (n : Nat) : List Char → Nat × List Char
  | [] => (n, [])
  | c :: rest =>
    let next := 10 * n + (c.toNat - '0'.toNat)
    if next < UInt64.size then withDigits next rest else (n, c :: rest)

/-- A power of ten, up to the largest that is a double. -/
def powerOfTen (e : Nat) : Float :=
  Number.ofDecimal ⟨1, e⟩

/-- Divides by the largest power of ten so many times, or until nothing is left. -/
def dividedDown : Nat → Float → Float
  | 0, x => x
  | steps + 1, x => if x == 0 then x else dividedDown steps (x / powerOfTen 308)

/-- A number scaled by a power of ten. Only smaller powers than the largest are divided by at the
end. -/
def scaledBy (x : Float) (e : Int) : Option Float :=
  if 308 < e then if x == 0 then some x else none
  else if 0 ≤ e then finite? (x * powerOfTen e.toNat)
  else
    let steps := ((-e).toNat - 1) / 308
    some (dividedDown steps x / powerOfTen ((-e).toNat - 308 * steps))

/-- The digits that 64 bits hold, scaled. The other digits before the point count for their number,
those after it do not count. -/
def scaled : Conversion := fun l =>
  let (front, uncounted) := withDigits 0 l.whole
  let (significand, unused) := withDigits front l.places
  let used := l.places.length - unused.length
  scaledBy (Number.ofInt significand) (l.exponent + uncounted.length - used)

/-! ### Literals -/

/-- The literal that digits make with a point and digits, an exponent, or both behind them. -/
def literal? (whole rest : List Char) : Option Literal :=
  match rest with
  | '.' :: rest =>
    let places := rest.takeWhile Number.isDigit
    if places.isEmpty then none
    else (Number.exponent? (rest.dropWhile Number.isDigit)).map fun e => ⟨whole, places, e⟩
  | rest => (Number.exponent? rest).map fun e => ⟨whole, [], e⟩

/-- A real number, if the doubles reach it. -/
def real (reals : Conversion) (negative : Bool) (l : Literal) : Document :=
  match reals l with
  | some x => .real (if negative then -x else x)
  | none => unreadable

/-- A number literal. Whole numbers that fit 64 bits are integers, minus zero is not. -/
def number? (reals : Conversion) (cs : List Char) : Option Document :=
  let negative := cs.head? == some '-'
  let unsigned := if negative then cs.drop 1 else cs
  let whole := unsigned.takeWhile Number.isDigit
  let rest := unsigned.dropWhile Number.isDigit
  if whole.isEmpty || (whole.head? == some '0' && 1 < whole.length) then none
  else if rest.isEmpty then
    let n := Number.digitsValue whole
    if negative && 0 < n && n ≤ Nat.pow 2 63 then some (.integer (-(n : Int)))
    else if !negative && n < UInt64.size then some (.integer n)
    else some (real reals negative ⟨whole, [], 0⟩)
  else (literal? whole rest).map (real reals negative)

end Lending.Json
