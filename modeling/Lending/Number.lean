/-! Numbers and their decimal texts.

A number is a double. Its text has the fewest digits that read back to it, and of those the
digits nearest to it. `Decimal.shortest` finds them in exact arithmetic on `Nat`: a finite
double is `m · 2^q`, the reals that round to it form an interval around it, and for one, two,
… digits the two neighbours of the value on that decimal grid are tried. A `Layout` then says
where the point goes and whether an exponent is written. Reading goes the other way:
`Number.ofText?` takes the digits apart and rounds once. -/
namespace Lending

/-- The value `digits · 10^exponent`. -/
structure Decimal where
  digits : Nat
  exponent : Int
  deriving DecidableEq, Repr

namespace Number

/-! ### The parts of a double -/

/-- The sign bit, set also for negative zero. -/
def isNegative (x : Float) : Bool :=
  x.toBits >>> 63 == 1

/-- The bits below the exponent. -/
def fraction (x : Float) : Nat :=
  x.toBits.toNat % Nat.pow 2 52

/-- The biased exponent. -/
def exponentField (x : Float) : Nat :=
  x.toBits.toNat / Nat.pow 2 52 % Nat.pow 2 11

/-- The whole number `m` of a finite double's magnitude `m · 2^q`. -/
def significand (x : Float) : Nat :=
  if exponentField x = 0 then fraction x else fraction x + Nat.pow 2 52

/-- The power `q` of a finite double's magnitude `m · 2^q`. -/
def scale (x : Float) : Int :=
  if exponentField x = 0 then -1074 else (exponentField x : Int) - 1075

/-- Whether a number is finite and has no fractional part. -/
def isWhole (x : Float) : Bool :=
  x.isFinite && (0 ≤ scale x || significand x % Nat.pow 2 (-scale x).toNat == 0)

/-- A place in the order of all doubles in which negative zero comes before zero, and the
not-a-number after infinity. -/
def rank (x : Float) : Int :=
  if isNegative x then -(x.toBits.toNat % Nat.pow 2 63 : Nat) - 1 else x.toBits.toNat

end Number

/-! ### Shortest digits -/

namespace Decimal

/-- Twice a double's neighbourhood in quarter steps of its last place: the reals between
`low · 2^power` and `high · 2^power` round to it, the ends too when `closed`. -/
structure Interval where
  low : Nat
  middle : Nat
  high : Nat
  power : Int
  closed : Bool

/-- The reals that round to a positive finite double. The step below a power of two is half
as wide. -/
def Interval.around (x : Float) : Interval :=
  let m := Number.significand x
  { low := if Number.fraction x = 0 ∧ 1 < Number.exponentField x then 4 * m - 1 else 4 * m - 2
    middle := 4 * m
    high := 4 * m + 2
    power := Number.scale x - 2
    closed := m % 2 = 0 }

/-- `a · 2^p` compared with `c · 10^e`, as a pair of whole numbers. -/
def crossed (a : Nat) (p : Int) (c : Nat) (e : Int) : Nat × Nat :=
  (a * Nat.pow 2 p.toNat * Nat.pow 10 (-e).toNat,
    c * Nat.pow 10 e.toNat * Nat.pow 2 (-p).toNat)

/-- Whether `c · 10^e` rounds to the double. -/
def Interval.contains (i : Interval) (c : Nat) (e : Int) : Bool :=
  let below := crossed i.low i.power c e
  let above := crossed i.high i.power c e
  if i.closed then below.1 ≤ below.2 && above.2 ≤ above.1 else below.1 < below.2 && above.2 < above.1

/-- The number `k` with `10^(k-1) ≤ middle · 2^power < 10^k`, from the length in binary. -/
def Interval.magnitude (i : Interval) : Int :=
  let guess := ((i.middle.log2 : Int) + i.power) * 30103 / 100000
  let reaches (k : Int) : Bool := let sides := crossed i.middle i.power 1 k; sides.2 ≤ sides.1
  if reaches (guess + 1) then guess + 2 else if reaches guess then guess + 1 else guess

/-- Which of two equally near decimals is taken. -/
inductive Tie where
  | up
  | toEven
  deriving DecidableEq, Repr

/-- Whether the upper of the neighbours `below` and `below + 1` is taken, the value lying
`rest / unit` of a step above the lower one. -/
def Tie.takesUpper (t : Tie) (below rest unit : Nat) : Bool :=
  unit < 2 * rest || (2 * rest == unit && (t == .up || below % 2 == 1))

/-- The nearest of the two neighbours of the value on the grid of `10^e` that round to the
double. -/
def Interval.onGrid? (i : Interval) (t : Tie) (e : Int) : Option Nat :=
  let sides := crossed i.middle i.power 1 e
  let below := sides.1 / sides.2
  let rest := sides.1 % sides.2
  match i.contains below e, i.contains (below + 1) e with
  | true, true => some (if t.takesUpper below rest sides.2 then below + 1 else below)
  | true, false => some below
  | false, true => some (below + 1)
  | false, false => none

/-- Drops the zeros at the end of the digits, at most `fuel` of them. -/
def stripped : Nat → Decimal → Decimal
  | 0, d => d
  | fuel + 1, d =>
    if d.digits % 10 = 0 ∧ d.digits ≠ 0 then stripped fuel ⟨d.digits / 10, d.exponent + 1⟩ else d

/-- The shortest decimal that rounds to a positive finite double; seventeen digits always
suffice. -/
def shortest (t : Tie) (x : Float) : Decimal :=
  let i := Interval.around x
  let k := i.magnitude
  let found := (List.range 17).findSome? fun (n : Nat) =>
    (i.onGrid? t (k - (n + 1))).map fun c => (⟨c, k - (n + 1)⟩ : Decimal)
  stripped 18 (found.getD ⟨0, 0⟩)

end Decimal

/-! ### Layouts -/

/-- How a decimal is written out. With `d` digits and the point after the `k`-th of them, the
digits stand in their places when `low < k ≤ high`, else an exponent is written. -/
structure Layout where
  low : Option Int
  high : Option Int
  /-- Written after a whole number. -/
  wholeEnd : String
  nan : String
  infinity : String
  tie : Decimal.Tie

namespace Layout

/-- Every digit in its place. -/
def plain : Layout := ⟨none, none, "", "NaN", "inf", .up⟩

/-- A point or an exponent always shows that the number is not an integer literal. -/
def marked : Layout := ⟨some (-5), some 16, ".0", ".nan", ".inf", .toEven⟩

def positional (l : Layout) (k : Int) : Bool :=
  (match l.low with | none => true | some b => b < k) &&
    (match l.high with | none => true | some b => k ≤ b)

def zeros (n : Nat) : String :=
  String.ofList (List.replicate n '0')

/-- A decimal with a positive number of digits, without its sign. -/
def magnitude (l : Layout) (d : Decimal) : String :=
  let digits := d.digits.repr.toList
  let k := (digits.length : Int) + d.exponent
  if l.positional k then
    if 0 ≤ d.exponent then
      String.ofList digits ++ zeros d.exponent.toNat ++ l.wholeEnd
    else if 0 < k then
      String.ofList (digits.take k.toNat) ++ "." ++ String.ofList (digits.drop k.toNat)
    else
      "0." ++ zeros (-k).toNat ++ String.ofList digits
  else
    let tail := digits.drop 1
    String.ofList (digits.take 1) ++ (if tail.isEmpty then "" else "." ++ String.ofList tail) ++
      "e" ++ (k - 1).repr

/-- The text of a double. -/
def text (l : Layout) (x : Float) : String :=
  if x.isNaN then l.nan
  else
    let sign := if Number.isNegative x then "-" else ""
    if x.isFinite then
      if x == 0 then sign ++ "0" ++ l.wholeEnd else sign ++ l.magnitude (Decimal.shortest l.tie x.abs)
    else sign ++ l.infinity

end Layout

namespace Number

/-- The text of a number in messages. -/
def text (x : Float) : String :=
  Layout.plain.text x

/-! ### Reading -/

def isDigit (c : Char) : Bool :=
  '0' ≤ c && c ≤ '9'

/-- The value of a string of decimal digits. -/
def digitsValue (digits : List Char) : Nat :=
  digits.foldl (fun n c => 10 * n + (c.toNat - '0'.toNat)) 0

/-- The double nearest to `digits · 10^exponent`. Far outside the range of the doubles the
answer is zero or infinity, and is given without forming the power. -/
def ofDecimal (d : Decimal) : Float :=
  let size := (d.digits.log2 : Int) * 30103 / 100000 + d.exponent
  if d.digits = 0 then 0
  else if 400 < size then 1 / 0
  else if size < -400 then 0
  else Float.ofScientific d.digits (d.exponent < 0) d.exponent.natAbs

/-- The double nearest to a whole number. -/
def ofInt (n : Int) : Float :=
  let magnitude := ofDecimal ⟨n.natAbs, 0⟩
  if n < 0 then -magnitude else magnitude

/-- The value of a digit; letters are digits from ten on. -/
def digit? (c : Char) : Option Nat :=
  if '0' ≤ c ∧ c ≤ '9' then some (c.toNat - '0'.toNat)
  else if 'a' ≤ c ∧ c ≤ 'z' then some (c.toNat - 'a'.toNat + 10)
  else if 'A' ≤ c ∧ c ≤ 'Z' then some (c.toNat - 'A'.toNat + 10)
  else none

/-- The value of at least one digit in a base. -/
def natural? (base : Nat) (digits : List Char) : Option Nat :=
  if digits.isEmpty then none
  else
    digits.foldlM (fun n c => (digit? c).bind fun d => if d < base then some (base * n + d) else none) 0

/-- A sign, and what follows it. -/
def splitSign : List Char → Bool × List Char
  | '-' :: rest => (true, rest)
  | '+' :: rest => (false, rest)
  | rest => (false, rest)

/-- A whole number in a base, with or without a sign, if 64 bits hold it. -/
def int64? (base : Nat) (cs : List Char) : Option Int := do
  let (negative, digits) := splitSign cs
  let n : Int ← (natural? base digits).map Int.ofNat
  let n := if negative then -n else n
  if Int64.minValue.toInt ≤ n ∧ n ≤ Int64.maxValue.toInt then return n else none

/-- Whether digits start with a zero that more digits follow. -/
def hasNeedlessZero (digits : List Char) : Bool :=
  digits.head? == some '0' && 1 < digits.length

/-- The exponent after a number's digits: nothing, or `e` with a whole number. -/
def exponent? : List Char → Option Int
  | [] => some 0
  | c :: rest =>
    let (negative, digits) := splitSign rest
    if (c = 'e' ∨ c = 'E') ∧ digits ≠ [] ∧ digits.all isDigit then
      some (if negative then -(digitsValue digits) else digitsValue digits)
    else none

/-- Digits with an optional point and an optional exponent; a digit is needed on one side of
the point. -/
def decimal? (cs : List Char) : Option Decimal :=
  let whole := cs.takeWhile isDigit
  let afterWhole := cs.dropWhile isDigit
  let places := match afterWhole with
    | '.' :: rest => rest.takeWhile isDigit
    | _ => []
  let afterPlaces := match afterWhole with
    | '.' :: rest => rest.dropWhile isDigit
    | _ => afterWhole
  if whole.isEmpty && places.isEmpty then none
  else (exponent? afterPlaces).map fun e => ⟨digitsValue (whole ++ places), e - places.length⟩

/-- The magnitude that a text without a sign stands for. -/
def magnitude? (cs : List Char) : Option Float :=
  let word := String.ofList (cs.map Char.toLower)
  if word = "inf" ∨ word = "infinity" then some (1 / 0)
  else if word = "nan" then some (0 / 0)
  else (decimal? cs).map ofDecimal

/-- The number that a text stands for: an optional sign, then digits, or a word for infinity or
not-a-number in any case. -/
def ofText? (s : String) : Option Float :=
  let (negative, rest) := splitSign s.toList
  (magnitude? rest).map fun x => if negative then -x else x

end Number

end Lending
