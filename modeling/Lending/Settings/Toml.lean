import Lending.Settings.Entry
import Lending.Settings.Scanner

/-! Settings in TOML.

A text is a list of lines: keys with values, and headers of tables. `Value` reads what stands
behind a key; `Tables` keeps the tables and how each one came to be, since no table is defined
twice: a header opens a table once, a dotted key goes only into tables that dotted keys have
made, and a value in braces is complete. -/
namespace Lending.Settings.Toml

/-! ### Characters -/

def isBlank (c : Char) : Bool :=
  c == ' ' || c == '\t'

/-- The characters of comments: all but control characters other than tabs. -/
def isCommentChar (c : Char) : Bool :=
  c == '\t' || ' ' ≤ c

/-- The characters of texts, quotes and backslashes aside. -/
def isTextChar (c : Char) : Bool :=
  isCommentChar c && c != '\x7f'

def isKeyChar (c : Char) : Bool :=
  ('a' ≤ c && c ≤ 'z') || ('A' ≤ c && c ≤ 'Z') || Number.isDigit c || c == '_' || c == '-'

def skipBlanks : Scanner Unit :=
  Scanner.skipWhile isBlank

/-- Passes over a line end, if it comes next. -/
def passesLineEnd : Scanner Bool := do
  if ← Scanner.passes "\n" then return true else Scanner.passes "\r\n"

/-- Passes over a comment, if it comes next. -/
def skipComment : Scanner Unit := do
  if ← Scanner.passes "#" then Scanner.skipWhile isCommentChar

/-- Passes over blanks, comments and line ends. -/
def skipSpace : Scanner Unit :=
  Scanner.loop do
    skipBlanks
    skipComment
    passesLineEnd

/-- The rest of a line has nothing in it but a comment. -/
def endLine : Scanner Unit := do
  skipBlanks
  skipComment
  if (← passesLineEnd) || (← Scanner.peek).isNone then return () else Scanner.fault

/-! ### Texts -/

/-- A code of so many hexadecimal digits. -/
def takeCode (n : Nat) : Scanner Char := do
  let digits ← Scanner.take n
  Scanner.ofOption ((Number.natural? 16 digits).bind Scanner.ofCode?)

/-- What stands behind a backslash. -/
def takeEscape : Scanner Char := do
  match ← Scanner.next with
  | 'b' => return '\x08'
  | 't' => return '\t'
  | 'n' => return '\n'
  | 'f' => return '\x0c'
  | 'r' => return '\r'
  | '"' => return '"'
  | '\\' => return '\\'
  | 'u' => takeCode 4
  | 'U' => takeCode 8
  | _ => Scanner.fault

/-- The next character of a text on one line, up to its quote. -/
def lineChar (quote : Char) : Scanner (Option Char) := do
  let c ← Scanner.next
  if c = quote then return none
  else if c = '\\' && quote = '"' then return some (← takeEscape)
  else if isTextChar c then return some c
  else Scanner.fault

/-- A text on one line, behind its opening quote. -/
def lineText (quote : Char) : Scanner String := do
  return String.ofList (← Scanner.collect (lineChar quote))

/-- A backslash at the end of a line joins the line with the next one that has something in
it. -/
def skipJoin : Scanner Bool := fun cs =>
  match cs with
  | '\\' :: rest =>
    match rest.dropWhile isBlank with
    | '\n' :: _ | '\r' :: '\n' :: _ =>
      some (true, rest.dropWhile fun c => isBlank c || c == '\n' || c == '\r')
    | _ => some (false, cs)
  | _ => some (false, cs)

/-- The next characters of a text on several lines. It ends at three quotes, before which two
more may stand that belong to the text. -/
def blockChars (quote : Char) : Scanner (Option (List Char)) := do
  let three := String.ofList [quote, quote, quote]
  if ← Scanner.passes three then return none
  else if ← passesLineEnd then return some ['\n']
  else if (quote == '"') && (← skipJoin) then return some []
  else
    let c ← Scanner.next
    if c = '\\' && quote = '"' then return some [← takeEscape]
    else if isTextChar c then return some [c]
    else Scanner.fault

/-- A text on several lines, behind its opening quotes. -/
def blockText (quote : Char) : Scanner String := do
  let _ ← passesLineEnd
  let parts ← Scanner.collect (blockChars quote)
  let more ← Scanner.takeWhile (· == quote)
  if 2 < more.length then Scanner.fault else return String.ofList (parts.flatten ++ more)

/-- A text at its opening quote. -/
def takeText (quote : Char) : Scanner String := do
  let one := String.ofList [quote]
  if ← Scanner.passes (one ++ one ++ one) then blockText quote
  else
    Scanner.expect one
    lineText quote

/-! ### Keys -/

def takeKey : Scanner String := do
  if ← Scanner.passes "\"" then lineText '"'
  else if ← Scanner.passes "'" then lineText '\''
  else
    let name ← Scanner.takeWhile isKeyChar
    if name.isEmpty then Scanner.fault else return String.ofList name

/-- Keys with points between them. -/
def takePath : Scanner (List String) := do
  let first ← takeKey
  let others ← Scanner.collect do
    skipBlanks
    if ← Scanner.passes "." then
      skipBlanks
      return some (← takeKey)
    else return none
  return first :: others

/-! ### Numbers -/

/-- Digits without the marks between them; a mark stands between two digits. -/
def unmarked? (isDigit : Char → Bool) : List Char → Option (List Char)
  | [] => none
  | [c] => if isDigit c then some [c] else none
  | c :: '_' :: d :: rest =>
    if isDigit c then (unmarked? isDigit (d :: rest)).map (c :: ·) else none
  | c :: d :: rest => if isDigit c then (unmarked? isDigit (d :: rest)).map (c :: ·) else none

def isHexDigit (c : Char) : Bool :=
  Number.isDigit c || ('a' ≤ c && c ≤ 'f') || ('A' ≤ c && c ≤ 'F')

/-- A whole number in another base, which its start names. -/
def based? : List Char → Option Int
  | '0' :: 'x' :: digits => (unmarked? isHexDigit digits).bind (Number.int64? 16)
  | '0' :: 'o' :: digits => (unmarked? Number.isDigit digits).bind (Number.int64? 8)
  | '0' :: 'b' :: digits => (unmarked? Number.isDigit digits).bind (Number.int64? 2)
  | _ => none

/-- The digits before the point or the exponent of a number. -/
def isWholeChar (c : Char) : Bool :=
  Number.isDigit c || c == '_'

def integer? (cs : List Char) : Option Int := do
  let (negative, rest) := Number.splitSign cs
  let digits ← unmarked? Number.isDigit rest
  if Number.hasNeedlessZero digits then none
  else Number.int64? 10 (if negative then '-' :: digits else digits)

/-- An exponent with its `e`, or nothing. -/
def exponent? : List Char → Option (List Char)
  | [] => some []
  | c :: rest =>
    if c = 'e' || c = 'E' then
      let (negative, digits) := Number.splitSign rest
      (unmarked? Number.isDigit digits).map fun digits => 'e' :: ((if negative then ['-'] else []) ++ digits)
    else none

/-- A number with places behind a point, an exponent, or both. -/
def decimal? (cs : List Char) : Option Float := do
  let (negative, rest) := Number.splitSign cs
  let whole ← unmarked? Number.isDigit (rest.takeWhile isWholeChar)
  if Number.hasNeedlessZero whole then none
  else
    let tail ← match rest.dropWhile isWholeChar with
      | '.' :: behind => do
        let places ← unmarked? Number.isDigit (behind.takeWhile isWholeChar)
        let exponent ← exponent? (behind.dropWhile isWholeChar)
        pure ('.' :: (places ++ exponent))
      | [] => none
      | behind => exponent? behind
    let x ← Number.ofText? (String.ofList (whole ++ tail))
    if !negative && x.isInf then none else return if negative then -x else x

def real? (cs : List Char) : Option Float :=
  let (negative, rest) := Number.splitSign cs
  match String.ofList rest with
  | "inf" => some (if negative then -(1 / 0) else 1 / 0)
  | "nan" => some (0 / 0)
  | _ => decimal? cs

/-! ### Dates and times -/

/-- So many digits. -/
def takeDigits (n : Nat) : Scanner Nat := do
  let digits ← Scanner.take n
  if digits.all Number.isDigit then return Number.digitsValue digits else Scanner.fault

def padded (n width : Nat) : String :=
  let digits := n.repr
  String.ofList (List.replicate (width - digits.length) '0') ++ digits

/-- The days of a month. -/
def daysIn (year month : Nat) : Nat :=
  let leap := year % 4 == 0 && (year % 100 != 0 || year % 400 == 0)
  match month with
  | 2 => if leap then 29 else 28
  | 4 | 6 | 9 | 11 => 30
  | _ => 31

def takeDate : Scanner String := do
  let year ← takeDigits 4
  Scanner.expect "-"
  let month ← takeDigits 2
  Scanner.expect "-"
  let day ← takeDigits 2
  if 1 ≤ month && month ≤ 12 && 1 ≤ day && day ≤ daysIn year month then
    return s!"{padded year 4}-{padded month 2}-{padded day 2}"
  else Scanner.fault

/-- Nine places of a second without the zeros at their end. -/
def fraction (digits : List Char) : String :=
  let places := ((digits.take 9).reverse.dropWhile (· == '0')).reverse
  if places.isEmpty then "" else String.ofList ('.' :: places)

def takeTime : Scanner String := do
  let hour ← takeDigits 2
  Scanner.expect ":"
  let minute ← takeDigits 2
  Scanner.expect ":"
  let second ← takeDigits 2
  let places ←
    if ← Scanner.passes "." then
      let digits ← Scanner.takeWhile Number.isDigit
      if digits.isEmpty then Scanner.fault else pure (fraction digits)
    else pure ""
  if hour ≤ 23 && minute ≤ 59 && second ≤ 60 then
    return s!"{padded hour 2}:{padded minute 2}:{padded second 2}{places}"
  else Scanner.fault

/-- The distance of a time from the universal time, or nothing. -/
def takeOffset : Scanner String := do
  match ← Scanner.peek with
  | some 'Z' | some 'z' =>
    let _ ← Scanner.next
    return "Z"
  | some '+' | some '-' =>
    let sign ← Scanner.next
    let hour ← takeDigits 2
    Scanner.expect ":"
    let minute ← takeDigits 2
    if hour ≤ 23 && minute ≤ 59 then
      let shown := if hour = 0 && minute = 0 then '+' else sign
      return s!"{String.ofList [shown]}{padded hour 2}:{padded minute 2}"
    else Scanner.fault
  | _ => return ""

/-- A date, a time, or both with a letter or a space between them. -/
def takeMoment : Scanner String := do
  if ← (do return (((← get).drop 2).head? == some ':')) then takeTime
  else
    let date ← takeDate
    let cs ← get
    let joined := match cs with
      | 'T' :: _ | 't' :: _ => true
      | ' ' :: c :: _ => Number.isDigit c
      | _ => false
    if joined then
      let _ ← Scanner.next
      let time ← takeTime
      let offset ← takeOffset
      return s!"{date}T{time}{offset}"
    else return date

/-- Whether a date or a time starts here. -/
def startsMoment (cs : List Char) : Bool :=
  ((cs.take 4).all Number.isDigit && (cs.drop 4).head? == some '-') ||
    ((cs.take 2).all Number.isDigit && (cs.drop 2).head? == some ':')

/-! ### Tables -/

/-- How a table came to be. -/
inductive Origin where
  /-- By a header of its own. -/
  | header
  /-- By the header of a table in it. -/
  | implied
  /-- By a dotted key. -/
  | dotted
  deriving DecidableEq, Repr

inductive Item where
  | value (s : Setting)
  | table (origin : Origin) (entries : List (String × Item))
  /-- A list of tables, the last one apart. -/
  | tables (earlier : List (List (String × Item))) (last : List (String × Item))

abbrev Entries := List (String × Item)

def Entries.replace (key : String) (i : Item) : Entries → Entries
  | [] => [(key, i)]
  | (k, old) :: rest => if k = key then (k, i) :: rest else (k, old) :: replace key i rest

/-- Adds a value under keys. `origin` is that of the table itself: a key without points goes
into a table that is not made by dotted keys, one with points into a table that is. -/
def Entries.add (v : Setting) (origin : Origin) : List String → Entries → Option Entries
  | [], _ => none
  | [key], es =>
    if origin = .implied || (es.lookup key).isSome then none else some (es ++ [(key, .value v)])
  | key :: rest, es =>
    match es.lookup key with
    | none => do
      let inner ← add v .dotted rest []
      return es ++ [(key, .table .dotted inner)]
    | some (.table .header _) | some (.value _) => none
    | some (.table origin inner) => do
      let inner ← add v origin rest inner
      return es.replace key (.table origin inner)
    | some (.tables earlier last) => do
      let last ← add v .implied rest last
      return es.replace key (.tables earlier last)

/-- Changes the table that keys lead to. Tables on the way that are not there are implied. -/
def Entries.within (change : Entries → Option Entries) : List String → Entries → Option Entries
  | [], es => change es
  | key :: rest, es =>
    match es.lookup key with
    | none => do
      let inner ← within change rest []
      return es ++ [(key, .table .implied inner)]
    | some (.value _) => none
    | some (.table origin inner) => do
      let inner ← within change rest inner
      return es.replace key (.table origin inner)
    | some (.tables earlier last) => do
      let last ← within change rest last
      return es.replace key (.tables earlier last)

/-- Opens a table by its header. -/
def Entries.openTable (key : String) (es : Entries) : Option Entries :=
  match es.lookup key with
  | none => some (es ++ [(key, .table .header [])])
  | some (.table .implied inner) => some (es.replace key (.table .header inner))
  | some _ => none

/-- Opens a further table of a list of tables. -/
def Entries.openItem (key : String) (es : Entries) : Option Entries :=
  match es.lookup key with
  | none => some (es ++ [(key, .tables [] [])])
  | some (.tables earlier last) => some (es.replace key (.tables (earlier ++ [last]) []))
  | some _ => none

mutual

def Item.setting : Item → Setting
  | .value s => s
  | .table _ es => .table (settings es)
  | .tables earlier last => .list (tableList earlier ++ [.table (settings last)])

def settings : List (String × Item) → List (String × Setting)
  | [] => []
  | (key, i) :: rest => (key, i.setting) :: settings rest

def tableList : List (List (String × Item)) → List Setting
  | [] => []
  | es :: rest => .table (settings es) :: tableList rest

end

/-! ### Values -/

/-- The characters of words and numbers. -/
def isWordChar (c : Char) : Bool :=
  isKeyChar c || c == '+' || c == '.'

/-- A word or a number. -/
def takeWord : Scanner Setting := do
  let cs ← Scanner.takeWhile isWordChar
  match String.ofList cs with
  | "true" => return .flag true
  | "false" => return .flag false
  | _ =>
    match based? cs, integer? cs, real? cs with
    | some n, _, _ | none, some n, _ => return .integer n
    | none, none, some x => return .real x
    | none, none, none => Scanner.fault

mutual

def takeValue : Nat → Scanner Setting
  | 0 => Scanner.fault
  | fuel + 1 => do
    match ← Scanner.peek with
    | some '"' => return .text (← takeText '"')
    | some '\'' => return .text (← takeText '\'')
    | some '[' =>
      Scanner.expect "["
      return .list (← Scanner.items skipSpace "]" (takeValue fuel))
    | some '\x7b' =>
      let _ ← Scanner.next
      skipBlanks
      if ← Scanner.passes "\x7d" then return .table []
      else return .table (settings (← takeMembers fuel []))
    | _ => if startsMoment (← get) then return .text (← takeMoment) else takeWord

/-- The members of a table in braces, up to its end. -/
def takeMembers : Nat → Entries → Scanner Entries
  | 0, _ => Scanner.fault
  | fuel + 1, es => do
    skipBlanks
    let path ← takePath
    skipBlanks
    Scanner.expect "="
    skipBlanks
    let s ← takeValue fuel
    let es ← Scanner.ofOption (es.add s .header path)
    skipBlanks
    if ← Scanner.passes "," then takeMembers fuel es
    else
      Scanner.expect "\x7d"
      return es

end

/-! ### Lines -/

structure Tables where
  entries : Entries
  /-- The keys of the table that is open. -/
  path : List String

/-- A header at its opening bracket. -/
def takeHeader (t : Tables) : Scanner Tables := do
  let isItem ← Scanner.passes "[["
  if !isItem then Scanner.expect "["
  skipBlanks
  let path ← takePath
  skipBlanks
  Scanner.expect (if isItem then "]]" else "]")
  endLine
  match path.reverse with
  | [] => Scanner.fault
  | key :: outer =>
    let change := if isItem then Entries.openItem key else Entries.openTable key
    let entries ← Scanner.ofOption (t.entries.within change outer.reverse)
    return ⟨entries, path⟩

/-- A key with its value. -/
def takeEntry (t : Tables) : Scanner Tables := do
  let path ← takePath
  skipBlanks
  Scanner.expect "="
  skipBlanks
  let s ← takeValue ((← get).length + 1)
  endLine
  let entries ← Scanner.ofOption (t.entries.within (Entries.add s .header path) t.path)
  return { t with entries := entries }

/-- The lines to the end of the text. -/
def takeLines : Nat → Tables → Scanner Tables
  | 0, _ => Scanner.fault
  | fuel + 1, t => do
    skipSpace
    match ← Scanner.peek with
    | none => return t
    | some '[' => takeLines fuel (← takeHeader t)
    | some _ => takeLines fuel (← takeEntry t)

/-- The entries of a text. -/
def read? (s : String) : Option (List (String × Setting)) := do
  let t ← Scanner.run? (takeLines (s.toList.length + 1) ⟨[], []⟩) s
  return settings t.entries

end Lending.Settings.Toml
