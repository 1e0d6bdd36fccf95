import Lending.Yaml.Scalar
import Lending.Yaml.Tag

/-! The tokens of a YAML text.

Collections that are laid out by indentation get tokens for their starts and ends. That a
mapping's key is one is known only at the colon behind it: until then the place where it
starts is kept as a candidate, and the colon puts the tokens in there. A candidate ends with
its line and after 1024 characters. -/
namespace Lending.Yaml

inductive Token where
  | version (major minor : Nat)
  | handle (name : String) (start : List UInt8)
  | documentStart
  | documentEnd
  | streamEnd
  | blockSequence
  | blockMapping
  | blockEnd
  | flowSequence
  | flowSequenceEnd
  | flowMapping
  | flowMappingEnd
  /-- The hyphen of an item. -/
  | item
  | comma
  | key
  | value
  | anchor (name : String)
  | alias (name : String)
  | tag (name : TagName)
  | scalar (text : String) (plain : Bool)
  deriving DecidableEq, Repr

/-- A place where a key may start. -/
structure Candidate where
  /-- A key has to be there. -/
  required : Bool
  /-- The number of tokens before it. -/
  tokens : Nat
  index : Nat
  line : Nat
  column : Nat

structure Scan where
  cursor : Cursor
  /-- The tokens so far, in reverse. -/
  tokens : List Token
  /-- The number of tokens so far. -/
  count : Nat
  /-- The column of the innermost collection; -1 outside of all. -/
  indent : Int
  /-- The columns of the collections around it. -/
  outer : List Int
  /-- The candidate outside of brackets. -/
  blockKey : Option Candidate
  /-- The candidates inside the open brackets, the innermost first. -/
  flowKeys : List (Option Candidate)
  /-- Whether a key may start here. -/
  keyAllowed : Bool

namespace Scan

def start (s : String) : Scan :=
  ⟨.ofText s, [], 0, -1, [], none, [], true⟩

/-- Whether the scan is inside brackets. -/
def inFlow (s : Scan) : Bool :=
  !s.flowKeys.isEmpty

def emit (s : Scan) (t : Token) : Scan :=
  { s with tokens := t :: s.tokens, count := s.count + 1 }

/-- Puts a token in after the first `n` tokens. -/
def insert (s : Scan) (n : Nat) (t : Token) : Scan :=
  { s with tokens := s.tokens.insertIdx (s.count - n) t, count := s.count + 1 }

def skip (s : Scan) (n : Nat) : Scan :=
  { s with cursor := s.cursor.skip n }

def column (s : Scan) : Int :=
  s.cursor.column

/-! ### Candidates -/

/-- The innermost candidate. -/
def candidate (s : Scan) : Option Candidate :=
  match s.flowKeys with
  | k :: _ => k
  | [] => s.blockKey

def setCandidate (s : Scan) (k : Option Candidate) : Scan :=
  match s.flowKeys with
  | _ :: rest => { s with flowKeys := k :: rest }
  | [] => { s with blockKey := k }

/-- Gives the innermost candidate up; one that is required cannot be given up. -/
def dropCandidate (s : Scan) : Option Scan :=
  match s.candidate with
  | some k => if k.required then none else some (s.setCandidate none)
  | none => some s

/-- Makes this place a candidate, if a key may start here. -/
def markCandidate (s : Scan) : Option Scan :=
  if s.keyAllowed then do
    let c := s.cursor
    let s ← s.dropCandidate
    return s.setCandidate (some ⟨!s.inFlow && s.indent == s.column, s.count, c.index, c.line, c.column⟩)
  else some s

/-- A candidate after its line, or after 1024 characters, is none any more. -/
def current (c : Cursor) (k : Option Candidate) : Option (Option Candidate) :=
  match k with
  | none => some none
  | some k =>
    if k.line < c.line || k.index + 1024 < c.index then if k.required then none else some none
    else some (some k)

def dropStale (s : Scan) : Option Scan := do
  let blockKey ← current s.cursor s.blockKey
  let flowKeys ← s.flowKeys.mapM (current s.cursor)
  return { s with blockKey := blockKey, flowKeys := flowKeys }

/-! ### Indentation -/

/-- Opens a collection at a column that is farther in; its start goes after the first `at?`
tokens or to the end. -/
def openBlock (s : Scan) (column : Int) (after : Option Nat) (t : Token) : Scan :=
  if s.inFlow || column ≤ s.indent then s
  else
    let s := { s with outer := s.indent :: s.outer, indent := column }
    match after with
    | some n => s.insert n t
    | none => s.emit t

/-- Closes the collections that are farther in than a column, `outer` being those around the
innermost one. -/
def closeFrom (s : Scan) (column : Int) : List Int → Scan
  | [] => s
  | next :: rest =>
    if column < s.indent then closeFrom { s.emit .blockEnd with indent := next, outer := rest } column rest
    else s

def closeBlocks (s : Scan) (column : Int) : Scan :=
  if s.inFlow then s else s.closeFrom column s.outer

/-! ### Blanks -/

/-- Passes over blanks, comments and line ends. Where a key may start a tab is no blank. A line
end outside of brackets allows a key. -/
def skipBlanks : Nat → Scan → Scan
  | 0, s => s
  | fuel + 1, s =>
    let tabs := s.inFlow || !s.keyAllowed
    let c := (s.cursor.skipOrderMark.skipWhile fun ch => ch == ' ' || (tabs && ch == '\t')).skipComment
    match c.takeBreak? with
    | some (_, next) =>
      skipBlanks fuel { s with cursor := next, keyAllowed := s.keyAllowed || !s.inFlow }
    | none => { s with cursor := c }

/-! ### Directives -/

/-- A number of at most nine digits. -/
def takeNumber? (c : Cursor) : Option (Nat × Cursor) :=
  let (digits, c) := c.takeWhile Number.isDigit
  if digits.isEmpty || 9 < digits.length then none else some (Number.digitsValue digits, c)

def takeVersion? (c : Cursor) : Option (Token × Cursor) := do
  let (major, c) ← takeNumber? (c.skipWhile isBlank)
  if !c.starts '.' then none
  else
    let (minor, c) ← takeNumber? (c.skip 1)
    return (.version major minor, c)

/-- The declaration of a handle: `!` or one with two exclamation marks. -/
def takeDeclaration? (c : Cursor) : Option (Token × Cursor) := do
  let (handle, c) ← TagName.takeHandle? (c.skipWhile isBlank)
  if !(handle == "!" || TagName.isFullHandle handle) || !c.looksAt 0 isBlank then none
  else
    let (start, c) ← TagName.takeSuffix true (c.skipWhile isBlank)
    if start.isEmpty || !c.blankAt 0 then none else some (.handle handle start, c)

/-- A directive at its percent sign, up to the start of the next line. -/
def takeDirective? (c : Cursor) : Option (Token × Cursor) := do
  let (name, c) := (c.skip 1).takeWhile isNameChar
  if !c.blankAt 0 then none
  else
    let (t, c) ← match String.ofList name with
      | "YAML" => takeVersion? c
      | "TAG" => takeDeclaration? c
      | _ => none
    let c := (c.skipWhile isBlank).skipComment
    if c.lineEndAt 0 then some (t, c.skipBreak) else none

/-! ### Tokens one by one -/

/-- A directive or a document mark: every collection ends before it. -/
def atMargin (s : Scan) : Option Scan := do
  let s ← (s.closeBlocks (-1)).dropCandidate
  return { s with keyAllowed := false }

def directive (s : Scan) : Option Scan := do
  let s ← s.atMargin
  let (t, c) ← takeDirective? s.cursor
  return { s with cursor := c }.emit t

def documentMark (s : Scan) (t : Token) : Option Scan := do
  let s ← s.atMargin
  return (s.skip 3).emit t

def openFlow (s : Scan) (t : Token) : Option Scan := do
  let s ← s.markCandidate
  return { s.skip 1 with flowKeys := none :: s.flowKeys, keyAllowed := true }.emit t

def closeFlow (s : Scan) (t : Token) : Option Scan := do
  let s ← s.dropCandidate
  return { s.skip 1 with flowKeys := s.flowKeys.drop 1, keyAllowed := false }.emit t

def comma (s : Scan) : Option Scan := do
  let s ← s.dropCandidate
  return { s.skip 1 with keyAllowed := true }.emit .comma

/-- The hyphen of an item, where outside of brackets a collection may start. -/
def item (s : Scan) : Option Scan := do
  if !s.inFlow && !s.keyAllowed then none
  else
    let s ← (s.openBlock s.column none .blockSequence).dropCandidate
    return { s.skip 1 with keyAllowed := true }.emit .item

/-- The question mark in front of a key. -/
def key (s : Scan) : Option Scan := do
  if !s.inFlow && !s.keyAllowed then none
  else
    let s ← (s.openBlock s.column none .blockMapping).dropCandidate
    return { s.skip 1 with keyAllowed := !s.inFlow }.emit .key

/-- The colon behind a key: the candidate becomes the key. -/
def value (s : Scan) : Option Scan :=
  match s.candidate with
  | some k =>
    let s := (s.insert k.tokens .key).openBlock k.column (some k.tokens) .blockMapping
    some ({ (s.setCandidate none).skip 1 with keyAllowed := false }.emit .value)
  | none =>
    if !s.inFlow && !s.keyAllowed then none
    else
      let s := s.openBlock s.column none .blockMapping
      some ({ s.skip 1 with keyAllowed := !s.inFlow }.emit .value)

/-- The name after the mark of an anchor or an alias. -/
def takeName? (c : Cursor) : Option (String × Cursor) :=
  let (name, c) := (c.skip 1).takeWhile isNameChar
  let ends (ch : Char) : Bool := ['?', ':', ',', ']', '\x7d', '%', '@', '\x60'].contains ch
  if name.isEmpty || !(c.blankAt 0 || c.looksAt 0 ends) then none else some (String.ofList name, c)

/-- A token that may be part of a key. -/
def inKey (s : Scan) (take? : Cursor → Option (Token × Cursor)) : Option Scan := do
  let s ← s.markCandidate
  let (t, c) ← take? s.cursor
  return { s with cursor := c, keyAllowed := false }.emit t

def named (s : Scan) (ofName : String → Token) : Option Scan :=
  s.inKey fun c => (takeName? c).map fun (name, c) => (ofName name, c)

def quoted (s : Scan) (quote : Char) : Option Scan :=
  s.inKey fun c => (quoted? quote c).map fun (text, c) => (.scalar text false, c)

def block (s : Scan) (folded : Bool) : Option Scan := do
  let s ← s.dropCandidate
  let (text, c) ← block? folded s.indent s.cursor
  return { s with cursor := c, keyAllowed := true }.emit (.scalar text false)

/-- A plain scalar. A line end behind it allows a key. -/
def plain (s : Scan) : Option Scan := do
  let s ← s.markCandidate
  let (f, c) ← plain? s.inFlow (s.indent + 1).toNat s.cursor
  return { s with cursor := c, keyAllowed := f.newLine }.emit (.scalar f.result true)

/-- The end of the text, which ends its last line. -/
def finish (s : Scan) : Option Scan := do
  let c := s.cursor
  let c := if c.column = 0 then c else { c with line := c.line + 1, column := 0 }
  let s ← ({ s with cursor := c }.closeBlocks (-1)).dropCandidate
  return { s with keyAllowed := false }.emit .streamEnd

/-! ### The token at a place -/

/-- The characters that start no plain scalar. -/
def isIndicator (c : Char) : Bool :=
  ['-', '?', ':', ',', '[', ']', '\x7b', '\x7d', '#', '&', '*', '!', '|', '>', '\'', '"', '%', '@',
    '\x60'].contains c

/-- Some indicators start a plain scalar when no blank follows. -/
def startsPlain (s : Scan) (ch : Char) : Bool :=
  let c := s.cursor
  (!isBlank ch && !isBreak ch && !isIndicator ch) || (ch == '-' && !c.looksAt 1 isBlank) ||
    (!s.inFlow && (ch == '?' || ch == ':') && !c.blankAt 1)

/-- The token that starts with a character. -/
def token (s : Scan) (ch : Char) : Option Scan :=
  let blankNext := s.cursor.blankAt 1
  if ch = '[' then s.openFlow .flowSequence
  else if ch = '\x7b' then s.openFlow .flowMapping
  else if ch = ']' then s.closeFlow .flowSequenceEnd
  else if ch = '\x7d' then s.closeFlow .flowMappingEnd
  else if ch = ',' then s.comma
  else if ch = '-' && blankNext then s.item
  else if ch = '?' && (s.inFlow || blankNext) then s.key
  else if ch = ':' && (s.inFlow || blankNext) then s.value
  else if ch = '*' then s.named .alias
  else if ch = '&' then s.named .anchor
  else if ch = '!' then
    s.inKey fun c => (TagName.take? s.inFlow c).map fun (tag, c) => (.tag tag, c)
  else if ch = '|' && !s.inFlow then s.block false
  else if ch = '>' && !s.inFlow then s.block true
  else if ch = '\'' || ch = '"' then s.quoted ch
  else if s.startsPlain ch then s.plain
  else none

/-- The next token, blanks having been passed over. -/
def next (s : Scan) : Option Scan := do
  let s ← s.dropStale
  let s := s.closeBlocks s.column
  let c := s.cursor
  match c.rest with
  | [] => s.finish
  | ch :: _ =>
    if c.column = 0 && ch = '%' then s.directive
    else if c.atMark '-' then s.documentMark .documentStart
    else if c.atMark '.' then s.documentMark .documentEnd
    else s.token ch

/-- Scans to the end of the text; every token but the last has a character of its own. -/
def run : Nat → Scan → Option Scan
  | 0, _ => none
  | fuel + 1, s => do
    let s := s.skipBlanks (s.cursor.rest.length + 1)
    let done := s.cursor.atEnd
    let s ← s.next
    if done then return s else run fuel s

end Scan

/-- The tokens of a text. -/
def Token.ofText? (s : String) : Option (List Token) :=
  if s.toList.all isPrintable then
    (Scan.run (s.toList.length + 1) (.start s)).map fun scan => scan.tokens.reverse
  else none

end Lending.Yaml
