import Lending.Settings.Entry
import Lending.Settings.Scanner

/-! Settings in INI files.

A line is a comment, the header of a section, or a key with a text behind an equals sign or a
colon. Keys before the first header are settings, and a section is a table. -/
namespace Lending.Settings.Ini

structure Entry where
  /-- The section it stands in, if it stands in one. -/
  table : Option String
  key : String
  text : String

structure Sections where
  /-- The section that is open. -/
  current : Option String
  /-- The sections so far. -/
  names : List String
  entries : List Entry

/-! ### Characters -/

/-- The character that a letter behind a backslash stands for. -/
def escaped (c : Char) : Char :=
  match c with
  | '0' => '\x00'
  | 'a' => '\x07'
  | 'b' => '\x08'
  | 't' => '\t'
  | 'r' => '\r'
  | 'n' => '\n'
  | c => c

/-- What stands behind a backslash; a line end joins two lines. -/
def takeEscape : Scanner (List Char) := do
  match ← Scanner.peek with
  | none => return ['\\']
  | some '\n' =>
    let _ ← Scanner.next
    return []
  | some 'x' =>
    let _ ← Scanner.next
    let digits ← Scanner.take 4
    return [← Scanner.ofOption ((Number.natural? 16 digits).bind Scanner.ofCode?)]
  | some c =>
    let _ ← Scanner.next
    return [escaped c]

/-- The characters up to one of these, which has to come unless the end will do. -/
def takeUntil (ends : List Char) (orEnd : Bool) : Scanner String := do
  let parts ← Scanner.collect do
    match ← Scanner.peek with
    | none => if orEnd then return none else Scanner.fault
    | some c =>
      if ends.contains c then return none
      else
        let _ ← Scanner.next
        if c = '\\' then return some (← takeEscape) else return some [c]
  return String.ofList parts.flatten

def takeLine : Scanner String := do
  return Text.trim (← takeUntil ['\n', '\r'] true)

/-! ### Texts -/

def isBlankInLine (c : Char) : Bool :=
  Text.isBlank c && c != '\n' && c != '\r'

/-- The text behind an equals sign or a colon, perhaps in quotes. -/
def takeText : Scanner String := do
  Scanner.skipWhile isBlankInLine
  match ← Scanner.peek with
  | some '"' | some '\'' =>
    let quote ← Scanner.next
    let quoted ← takeUntil [quote] false
    let _ ← Scanner.next
    return quoted ++ (← takeLine)
  | _ => takeLine

/-! ### Lines -/

/-- A comment starts at the start of its line. -/
def skipComment (atStart : Bool) : Scanner Unit := do
  if atStart then
    Scanner.skipWhile (· != '\n')
    let _ ← Scanner.passes "\n"
  else Scanner.fault

/-- A header behind its opening bracket. -/
def takeHeader (s : Sections) : Scanner Sections := do
  let name := Text.trim (← takeUntil [']'] false)
  let _ ← Scanner.next
  return { s with current := some name, names := s.names ++ [name] }

/-- A key with its text. -/
def takeEntry (s : Sections) : Scanner Sections := do
  let key := Text.trim (← takeUntil ['=', ':'] false)
  let _ ← Scanner.next
  if key.isEmpty then Scanner.fault
  else
    let text ← takeText
    return { s with entries := s.entries ++ [⟨s.current, key, text⟩] }

/-- Passes over blanks; tells whether a line starts behind them. -/
def skipBlanks (atStart : Bool) : Scanner Bool := do
  let blanks ← Scanner.takeWhile Text.isBlank
  return match blanks.getLast? with
    | some c => c == '\n'
    | none => atStart

def takeLines : Nat → Bool → Sections → Scanner Sections
  | 0, _, _ => Scanner.fault
  | fuel + 1, atStart, s => do
    let atStart ← skipBlanks atStart
    match ← Scanner.peek with
    | none => return s
    | some ';' | some '#' => do
      skipComment atStart
      takeLines fuel true s
    | some '[' => do
      let _ ← Scanner.next
      takeLines fuel false (← takeHeader s)
    | some _ => do takeLines fuel false (← takeEntry s)

/-! ### Entries -/

/-- The entries of a section; of two under one key the later one counts. -/
def Sections.entriesOf (s : Sections) (name : Option String) : List (String × Setting) :=
  Setting.distinct
    ((s.entries.filter (·.table == name)).map fun e => (e.key, .text e.text))

/-- The entries of a text. A section takes the place of a setting with its name. -/
def read? (s : String) : Option (List (String × Setting)) := do
  let sections ← Scanner.run? (takeLines (s.toList.length + 1) true ⟨none, [], []⟩) s
  let tables := sections.names.map fun name => (name, Setting.table (sections.entriesOf (some name)))
  return Setting.distinct (sections.entriesOf none ++ tables)

end Lending.Settings.Ini
