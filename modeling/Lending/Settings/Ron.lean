import Lending.Number
import Lending.Settings.Entry
import Lending.Settings.Scanner

/-! Settings in RON, a notation for structures, lists, maps and optional values.

The names of structures do not count: a structure with named members is a table, and one
without is a list. An optional value is the value itself, or null. -/
namespace Lending.Settings.Ron

/-! ### Space -/

def isBlank (c : Char) : Bool :=
  c == ' ' || c == '\t' || c == '\n' || c == '\r'

/-- Passes over the rest of so many comments, one inside the other. -/
def endComments : Nat → Nat → Scanner Unit
  | _, 0 => return ()
  | 0, _ => Scanner.fault
  | fuel + 1, levels + 1 => do
    if ← Scanner.passes "/*" then endComments fuel (levels + 2)
    else if ← Scanner.passes "*/" then endComments fuel levels
    else
      let _ ← Scanner.next
      endComments fuel (levels + 1)

/-- Passes over a comment, if it comes next. -/
def passesComment : Scanner Bool := do
  if ← Scanner.passes "//" then
    Scanner.skipWhile (· != '\n')
    return true
  else if ← Scanner.passes "/*" then
    endComments ((← get).length + 1) 1
    return true
  else return false

def skipSpace : Scanner Unit :=
  Scanner.loop do
    Scanner.skipWhile isBlank
    passesComment

/-! ### Names -/

def isNameChar (c : Char) : Bool :=
  c.isAlphanum || c == '_'

/-- Whether a text in raw quotes starts here. -/
def startsRaw : List Char → Bool
  | 'r' :: '"' :: _ | 'r' :: '#' :: _ => true
  | _ => false

/-- A name, if one comes next. -/
def takeName? : Scanner (Option String) := fun cs =>
  if startsRaw cs || cs.head?.all (fun c => !isNameChar c || Number.isDigit c) then some (none, cs)
  else some (some (String.ofList (cs.takeWhile isNameChar)), cs.dropWhile isNameChar)

def takeName : Scanner String := do
  Scanner.ofOption (← takeName?)

/-- Whether the name of a member comes next. -/
def startsMember : Scanner Bool := fun cs =>
  let scan : Scanner Unit := do
    let _ ← takeName
    skipSpace
    Scanner.expect ":"
  some ((scan cs).isSome, cs)

/-! ### Texts -/

/-- The character of a code of one to six hexadecimal digits in braces. -/
def takeCode : Scanner Char := do
  Scanner.expect "\x7b"
  let digits ← Scanner.takeWhile (· != '\x7d')
  Scanner.expect "\x7d"
  if 6 < digits.length then Scanner.fault
  else Scanner.ofOption ((Number.natural? 16 digits).bind Scanner.ofCode?)

/-- What stands behind a backslash. -/
def takeEscape : Scanner Char := do
  match ← Scanner.next with
  | '\'' => return '\''
  | '"' => return '"'
  | '\\' => return '\\'
  | 'n' => return '\n'
  | 'r' => return '\r'
  | 't' => return '\t'
  | '0' => return '\x00'
  | 'x' =>
    let digits ← Scanner.take 2
    Scanner.ofOption ((Number.natural? 16 digits).map Char.ofNat)
  | 'u' => takeCode
  | _ => Scanner.fault

/-- The next character of a text, up to its quote. -/
def textChar : Scanner (Option Char) := do
  match ← Scanner.next with
  | '"' => return none
  | '\\' => return some (← takeEscape)
  | c => return some c

/-- A text in raw quotes, which have as many marks behind them as before them. -/
def takeRaw : Scanner String := do
  Scanner.expect "r"
  let marks ← Scanner.takeWhile (· == '#')
  Scanner.expect "\""
  let close := String.ofList ('"' :: marks)
  let cs ← Scanner.collect do
    if ← Scanner.passes close then return none
    else return some (← Scanner.next)
  return String.ofList cs

def takeText : Scanner String := do
  if ← Scanner.passes "\"" then return String.ofList (← Scanner.collect textChar)
  else takeRaw

/-- A text of one character, in single quotes. -/
def takeCharacter : Scanner String := do
  Scanner.expect "'"
  let c ← match ← Scanner.next with
    | '\'' => Scanner.fault
    | '\\' => takeEscape
    | c => pure c
  Scanner.expect "'"
  return String.ofList [c]

/-! ### Numbers -/

def isWholeChar (c : Char) : Bool :=
  Number.isDigit c || ('a' ≤ c && c ≤ 'f') || ('A' ≤ c && c ≤ 'F') || c == '_'

def isRealChar (c : Char) : Bool :=
  Number.isDigit c || ['e', 'E', '.', '+', '-', '_'].contains c

/-- The value of digits, between which marks may stand. -/
def digits? (base : Nat) (digits : List Char) : Option Nat :=
  if digits.head? == some '_' then none else Number.natural? base (digits.filter (· != '_'))

/-- The value of digits in the base that their start names. -/
def magnitude? : List Char → Option Nat
  | '0' :: 'x' :: digits => digits? 16 digits
  | '0' :: 'o' :: digits => digits? 8 digits
  | '0' :: 'b' :: digits => digits? 2 digits
  | digits => digits? 10 digits

/-- A whole number. One without a sign may have 64 bits, and is real if they are too many for
one with a sign. -/
def whole? (cs : List Char) : Option Setting := do
  let (negative, digits) := Number.splitSign cs
  let n : Int ← (magnitude? digits).map Int.ofNat
  let n := if negative then -n else n
  if Int64.minValue.toInt ≤ n ∧ n ≤ Int64.maxValue.toInt then return .integer n
  else if digits.length = cs.length ∧ n < UInt64.size then return .real (Number.ofInt n)
  else none

def real? (cs : List Char) : Option Setting :=
  let (_, digits) := Number.splitSign cs
  if digits.all isRealChar then (Number.ofText? (String.ofList cs)).map .real else none

def ofWord? (cs : List Char) : Option Setting :=
  let (_, digits) := Number.splitSign cs
  if cs = ['-', 'i', 'n', 'f'] then some (.real (-1 / 0))
  else if (digits.takeWhile isWholeChar).length < (digits.takeWhile isRealChar).length then real? cs
  else whole? cs <|> real? cs

/-- The characters of numbers. -/
def isWordChar (c : Char) : Bool :=
  isNameChar c || c == '+' || c == '-' || c == '.'

def takeNumber : Scanner Setting := do
  let cs ← Scanner.takeWhile isWordChar
  Scanner.ofOption (ofWord? cs)

/-! ### Values

Each of these readers has a reader for the values inside. -/

def takeOptional (inner : Scanner Setting) : Scanner Setting := do
  skipSpace
  Scanner.expect "("
  skipSpace
  let s ← inner
  skipSpace
  Scanner.expect ")"
  return s

/-- The value behind a key. -/
def takeBehind (inner : Scanner Setting) : Scanner Setting := do
  skipSpace
  Scanner.expect ":"
  skipSpace
  inner

/-- A structure behind its opening bracket. -/
def takeStructure (inner : Scanner Setting) : Scanner Setting := do
  skipSpace
  if ← startsMember then
    let members ← Scanner.items skipSpace ")" do
      let name ← takeName
      return (name, ← takeBehind inner)
    return .table (Setting.distinct members)
  else return .list (← Scanner.items skipSpace ")" inner)

/-- A map behind its opening brace; its keys are texts. -/
def takeMap (inner : Scanner Setting) : Scanner Setting := do
  let members ← Scanner.items skipSpace "\x7d" do
    match ← inner with
    | .text name => return (name, ← takeBehind inner)
    | _ => Scanner.fault
  return .table (Setting.distinct members)

/-- What a name is: a word, or the name of a structure. -/
def ofName (inner : Scanner Setting) (name : String) : Scanner Setting := do
  match name with
  | "true" => return .flag true
  | "false" => return .flag false
  | "None" => return .null
  | "Some" => takeOptional inner
  | "inf" => return .real (1 / 0)
  | "NaN" => return .real (0 / 0)
  | _ =>
    skipSpace
    if ← Scanner.passes "(" then takeStructure inner else return .null

def takeWith (inner : Scanner Setting) : Scanner Setting := do
  match ← takeName? with
  | some name => ofName inner name
  | none =>
    if ← Scanner.passes "()" then return .null
    else if ← Scanner.passes "(" then takeStructure inner
    else if ← Scanner.passes "[" then return .list (← Scanner.items skipSpace "]" inner)
    else if ← Scanner.passes "\x7b" then takeMap inner
    else
      match ← Scanner.peek with
      | some '"' | some 'r' => return .text (← takeText)
      | some '\'' => return .text (← takeCharacter)
      | _ => takeNumber

/-- A value with no more than so many values one inside the other. -/
def takeValue : Nat → Scanner Setting
  | 0 => takeWith Scanner.fault
  | depth + 1 => takeWith (takeValue depth)

/-- How deep values may nest. -/
def maxDepth : Nat := 128

/-! ### Extensions -/

/-- Extensions of the notation that a text may name; the settings do not need them. -/
def extensions : List String :=
  ["unwrap_newtypes", "implicit_some", "unwrap_variant_newtypes"]

def takeExtension : Scanner String := do
  let name ← takeName
  if extensions.contains name then return name else Scanner.fault

/-- Passes over characters with space around them. -/
def expectLoose (s : String) : Scanner Unit := do
  Scanner.expect s
  skipSpace

/-- Passes over the naming of extensions, if it comes next. -/
def passesExtensions : Scanner Bool := do
  skipSpace
  if (← Scanner.peek) == some '#' then
    for s in ["#", "!", "[", "enable", "("] do expectLoose s
    let _ ← Scanner.items skipSpace ")" takeExtension
    skipSpace
    expectLoose "]"
    return true
  else return false

def takeAll : Scanner Setting := do
  Scanner.loop passesExtensions
  let s ← takeValue maxDepth
  skipSpace
  return s

/-- The entries of a text, which holds one structure or map. -/
def read? (s : String) : Option (List (String × Setting)) := do
  match ← Scanner.run? takeAll s with
  | .table entries => some entries
  | _ => none

end Lending.Settings.Ron
