/-! A place in a YAML text: what is still to be read, and how far the reading has come.

A line ends with a line feed, a carriage return, both, a next-line character, or a line or
paragraph separator. The end of the text counts as blank wherever a blank is asked for. -/
namespace Lending.Yaml

structure Cursor where
  rest : List Char
  /-- The number of characters before this place. -/
  index : Nat
  line : Nat
  /-- The number of characters before this place in its line. -/
  column : Nat

/-! ### Characters -/

def isBlank (c : Char) : Bool :=
  c == ' ' || c == '\t'

def isBreak (c : Char) : Bool :=
  c == '\n' || c == '\r' || c == '\u0085' || c == '\u2028' || c == '\u2029'

/-- Letters, digits, hyphen and underscore of ASCII: the characters of names. -/
def isNameChar (c : Char) : Bool :=
  ('0' ≤ c && c ≤ '9') || ('A' ≤ c && c ≤ 'Z') || ('a' ≤ c && c ≤ 'z') || c == '_' || c == '-'

/-- The characters that may stand in a text: no control characters but tabs and line ends. -/
def isPrintable (c : Char) : Bool :=
  c == '\t' || c == '\n' || c == '\r' || (' ' ≤ c && c ≤ '~') || c == '\u0085' ||
    ('\u00a0' ≤ c && c ≤ '\ufffd') || 0x10000 ≤ c.toNat

namespace Cursor

def ofText (s : String) : Cursor :=
  ⟨s.toList, 0, 0, 0⟩

def atEnd (c : Cursor) : Bool :=
  c.rest.isEmpty

/-- Whether the character `n` places on satisfies `p`. -/
def looksAt (c : Cursor) (n : Nat) (p : Char → Bool) : Bool :=
  c.rest[n]?.any p

/-- Whether there is a blank, a line end or the end of the text `n` places on. -/
def blankAt (c : Cursor) (n : Nat) : Bool :=
  match c.rest[n]? with
  | none => true
  | some ch => isBlank ch || isBreak ch

def lineEndAt (c : Cursor) (n : Nat) : Bool :=
  match c.rest[n]? with
  | none => true
  | some ch => isBreak ch

/-- Whether the text goes on with a character. -/
def starts (c : Cursor) (ch : Char) : Bool :=
  c.rest.head? == some ch

/-- Passes over so many characters of the line. -/
def skip (c : Cursor) (n : Nat) : Cursor :=
  { c with rest := c.rest.drop n, index := c.index + n, column := c.column + n }

def skipWhile (c : Cursor) (p : Char → Bool) : Cursor :=
  c.skip (c.rest.takeWhile p).length

/-- Takes characters of the line. -/
def takeWhile (c : Cursor) (p : Char → Bool) : List Char × Cursor :=
  let taken := c.rest.takeWhile p
  (taken, c.skip taken.length)

/-- The start of the next line, where this line has so many characters left. -/
def nextLine (c : Cursor) (n : Nat) : Cursor :=
  ⟨c.rest.drop n, c.index + n, c.line + 1, 0⟩

/-- Takes a line end, as it stands in scalars. -/
def takeBreak? (c : Cursor) : Option (List Char × Cursor) :=
  match c.rest with
  | '\r' :: '\n' :: _ => some (['\n'], c.nextLine 2)
  | '\r' :: _ | '\n' :: _ | '\u0085' :: _ => some (['\n'], c.nextLine 1)
  | '\u2028' :: _ => some (['\u2028'], c.nextLine 1)
  | '\u2029' :: _ => some (['\u2029'], c.nextLine 1)
  | _ => none

/-- Passes over a line end, if there is one. -/
def skipBreak (c : Cursor) : Cursor :=
  match c.takeBreak? with
  | some (_, c) => c
  | none => c

/-- Passes over a byte order mark at the start of a line. -/
def skipOrderMark (c : Cursor) : Cursor :=
  if c.column == 0 && c.starts '\ufeff' then c.skip 1 else c

/-- Passes over a comment up to the end of the line. -/
def skipComment (c : Cursor) : Cursor :=
  if c.starts '#' then c.skipWhile (!isBreak ·) else c

/-- Whether three of a character and a blank stand at the start of the line. -/
def atMark (c : Cursor) (ch : Char) : Bool :=
  c.column == 0 && c.rest.take 3 == [ch, ch, ch] && c.blankAt 3

/-- Whether a document starts or ends here. -/
def atDocumentMark (c : Cursor) : Bool :=
  c.atMark '-' || c.atMark '.'

end Cursor

end Lending.Yaml
