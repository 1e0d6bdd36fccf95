import Lending.Number
import Lending.Settings.Entry
import Lending.Settings.Scanner

/-! Settings in JSON5, which is JSON with comments, keys without quotes, quotes of two kinds, a
comma behind the last item, and numbers with a sign or in hexadecimal digits. -/
namespace Lending.Settings.Json5

/-! ### Space -/

def isLineEnd (c : Char) : Bool :=
  c == '\n' || c == '\r' || c == '\u2028' || c == '\u2029'

def isBlank (c : Char) : Bool :=
  isLineEnd c || ('\u2000' ≤ c && c ≤ '\u200a') ||
    ['\t', '\x0b', '\x0c', ' ', '\u00a0', '\u1680', '\u202f', '\u205f', '\u3000', '\ufeff'].contains c

/-- Passes over a comment, if it comes next. -/
def passesComment : Scanner Bool := do
  if ← Scanner.passes "//" then
    Scanner.skipWhile (!isLineEnd ·)
    return true
  else if ← Scanner.passes "/*" then
    Scanner.loop do
      if ← Scanner.passes "*/" then return false
      else
        let _ ← Scanner.next
        return true
    return true
  else return false

def skipSpace : Scanner Unit :=
  Scanner.loop do
    Scanner.skipWhile isBlank
    passesComment

/-! ### Texts and keys -/

/-- The number of so many hexadecimal digits. -/
def takeCode (n : Nat) : Scanner Nat := do
  let digits ← Scanner.take n
  Scanner.ofOption (Number.natural? 16 digits)

/-- The character of a code, or of a surrogate pair of codes. -/
def takeCharacter : Scanner Char := do
  let n ← takeCode 4
  if 0xd800 ≤ n ∧ n < 0xdc00 then
    Scanner.expect "\\u"
    let m ← takeCode 4
    if 0xdc00 ≤ m ∧ m < 0xe000 then return Char.ofNat (0x10000 + (n - 0xd800) * 0x400 + (m - 0xdc00))
    else Scanner.fault
  else Scanner.ofOption (Scanner.ofCode? n)

/-- What stands behind a backslash; a line end joins two lines. -/
def takeEscape : Scanner (List Char) := do
  match ← Scanner.next with
  | 'b' => return ['\x08']
  | 'f' => return ['\x0c']
  | 'n' => return ['\n']
  | 'r' => return ['\r']
  | 't' => return ['\t']
  | 'v' => return ['\x0b']
  | '0' => return ['\x00']
  | 'x' => return [Char.ofNat (← takeCode 2)]
  | 'u' => return [← takeCharacter]
  | '\r' =>
    let _ ← Scanner.passes "\n"
    return []
  | c =>
    if isLineEnd c then return []
    else if Number.isDigit c then Scanner.fault
    else return [c]

/-- The next characters of a text, up to its quote. -/
def textChars (quote : Char) : Scanner (Option (List Char)) := do
  let c ← Scanner.next
  if c = quote then return none
  else if c = '\\' then return some (← takeEscape)
  else if isLineEnd c then Scanner.fault
  else return some [c]

/-- A text at its opening quote. -/
def takeText : Scanner String := do
  let quote ← Scanner.next
  return String.ofList (← Scanner.collect (textChars quote)).flatten

def isLetter (c : Char) : Bool :=
  c.isAlpha || c == '$' || c == '_' || ('\x7f' < c && !isBlank c)

/-- The next character of a key without quotes. -/
def keyChar (isFirst : Bool) : Scanner (Option Char) := do
  if ← Scanner.passes "\\u" then return some (← takeCharacter)
  else
    match ← Scanner.peek with
    | some c =>
      if isLetter c || (!isFirst && Number.isDigit c) then
        let _ ← Scanner.next
        return some c
      else return none
    | none => return none

def takeKey : Scanner String := do
  match ← Scanner.peek with
  | some '"' | some '\'' => takeText
  | _ =>
    let first ← Scanner.ofOption (← keyChar true)
    return String.ofList (first :: (← Scanner.collect (keyChar false)))

/-! ### Words and numbers -/

/-- A whole number in hexadecimal digits, which have 32 bits at most. -/
def hexadecimal? (digits : List Char) : Option Setting :=
  ((Number.natural? 16 digits).filter (· < UInt32.size)).map fun n => .integer n

/-- A number with decimal digits. With a point or an exponent it is real, and may not be beyond
the doubles. -/
def decimal? (cs : List Char) : Option Setting :=
  let (_, digits) := Number.splitSign cs
  if Number.hasNeedlessZero (digits.takeWhile Number.isDigit) then none
  else if digits.all Number.isDigit then (Number.int64? 10 cs).map .integer
  else if digits.any Char.isAlpha && !digits.any fun c => c == 'e' || c == 'E' then none
  else ((Number.ofText? (String.ofList cs)).filter Float.isFinite).map .real

def ofWord? (cs : List Char) : Option Setting :=
  match String.ofList cs, cs with
  | "null", _ => some .null
  | "true", _ => some (.flag true)
  | "false", _ => some (.flag false)
  | "Infinity", _ => some (.real (1 / 0))
  | "-Infinity", _ => some (.real (-1 / 0))
  | "NaN", _ | "-NaN", _ => some (.real (0 / 0))
  | _, '0' :: 'x' :: digits | _, '0' :: 'X' :: digits => hexadecimal? digits
  | _, cs => decimal? cs

/-- The characters of words and numbers. -/
def isWordChar (c : Char) : Bool :=
  c.isAlphanum || c == '+' || c == '-' || c == '.'

/-! ### Values -/

def takeMember (takeValue : Scanner Setting) : Scanner (String × Setting) := do
  let key ← takeKey
  skipSpace
  Scanner.expect ":"
  skipSpace
  return (key, ← takeValue)

def takeValue : Nat → Scanner Setting
  | 0 => Scanner.fault
  | fuel + 1 => do
    match ← Scanner.peek with
    | some '"' | some '\'' => return .text (← takeText)
    | some '[' =>
      let _ ← Scanner.next
      return .list (← Scanner.items skipSpace "]" (takeValue fuel))
    | some '\x7b' =>
      let _ ← Scanner.next
      let members ← Scanner.items skipSpace "\x7d" (takeMember (takeValue fuel))
      return .table (Setting.distinct members)
    | _ =>
      let cs ← Scanner.takeWhile isWordChar
      Scanner.ofOption (ofWord? cs)

def takeAll : Scanner Setting := do
  skipSpace
  let s ← takeValue ((← get).length + 1)
  skipSpace
  return s

/-- The entries of a text, which holds one object. -/
def read? (s : String) : Option (List (String × Setting)) := do
  match ← Scanner.run? takeAll s with
  | .table entries => some entries
  | _ => none

end Lending.Settings.Json5
