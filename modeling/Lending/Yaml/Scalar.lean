import Lending.Json.Reader
import Lending.Yaml.Cursor

/-! The texts of scalars.

In quoted and plain scalars a line end with the blanks around it stands for one space, and
further line ends stand for themselves. In block scalars lines stand as they are below their
indentation, or are joined in the same way when folded. -/
namespace Lending.Yaml

/-! ### Folding lines -/

/-- The text of a scalar so far, in reverse, and the blanks after it that are not settled yet. -/
structure Fold where
  text : List Char
  /-- Blanks since the last character, in reverse. -/
  blanks : List Char
  /-- Whether a line has ended since the last character. -/
  newLine : Bool
  /-- The first line end since then. -/
  firstBreak : List Char
  /-- The further line ends, in reverse. -/
  moreBreaks : List Char

namespace Fold

def empty : Fold :=
  ⟨[], [], false, [], []⟩

/-- A blank; blanks at the start of a line are dropped. -/
def addBlank (f : Fold) (c : Char) : Fold :=
  if f.newLine then f else { f with blanks := c :: f.blanks }

/-- A line end; blanks before it are dropped. -/
def addBreak (f : Fold) (lineEnd : List Char) : Fold :=
  if f.newLine then { f with moreBreaks := lineEnd.reverse ++ f.moreBreaks }
  else { f with blanks := [], newLine := true, firstBreak := lineEnd }

/-- Whether blanks or line ends are not settled yet. -/
def isPending (f : Fold) : Bool :=
  f.newLine || !f.blanks.isEmpty

/-- What the unsettled blanks and line ends come to, in reverse. -/
def pending (f : Fold) : List Char :=
  if !f.newLine then f.blanks
  else if f.firstBreak = ['\n'] then if f.moreBreaks.isEmpty then [' '] else f.moreBreaks
  else f.moreBreaks ++ f.firstBreak.reverse

def settle (f : Fold) : Fold :=
  { empty with text := f.pending ++ f.text }

/-- A character of the text, after what was unsettled. -/
def add (f : Fold) (c : Char) : Fold :=
  { empty with text := c :: (f.pending ++ f.text) }

def result (f : Fold) : String :=
  String.ofList f.text.reverse

end Fold

/-! ### Quoted scalars -/

/-- The character that a letter after a backslash stands for. -/
def escaped? : Char → Option Char
  | '0' => some '\x00'
  | 'a' => some '\x07'
  | 'b' => some '\x08'
  | 't' | '\t' => some '\t'
  | 'n' => some '\n'
  | 'v' => some '\x0b'
  | 'f' => some '\x0c'
  | 'r' => some '\r'
  | 'e' => some '\x1b'
  | ' ' => some ' '
  | '"' => some '"'
  | '/' => some '/'
  | '\\' => some '\\'
  | 'N' => some '\u0085'
  | '_' => some '\u00a0'
  | 'L' => some '\u2028'
  | 'P' => some '\u2029'
  | _ => none

/-- The number of hexadecimal digits after a letter after a backslash. -/
def codeLength? : Char → Option Nat
  | 'x' => some 2
  | 'u' => some 4
  | 'U' => some 8
  | _ => none

def hexValue? (digits : List Char) : Option Nat :=
  digits.foldlM (fun n c => (Json.hexDigit? c).map (16 * n + ·)) 0

/-- The character of a code that is neither a surrogate nor too large. -/
def ofCode? (n : Nat) : Option Char :=
  if (0xd800 ≤ n ∧ n < 0xe000) ∨ 0x10ffff < n then none else some (Char.ofNat n)

/-- An escape sequence: its character, and its length. -/
def escape? (c : Cursor) : Option (Char × Nat) := do
  let letter ← c.rest[1]?
  match codeLength? letter with
  | some n =>
    let digits := (c.rest.drop 2).take n
    if digits.length < n then none
    else
      let ch ← (hexValue? digits).bind ofCode?
      return (ch, n + 2)
  | none => (escaped? letter).map (·, 2)

/-- What stands before the closing quote. -/
def quotedFrom (quote : Char) : Nat → Cursor → Fold → Option (String × Cursor)
  | 0, _, _ => none
  | fuel + 1, c, f =>
    if c.atDocumentMark then none
    else
      match c.takeBreak? with
      | some (lineEnd, next) => quotedFrom quote fuel next (f.addBreak lineEnd)
      | none =>
        match c.rest with
        | [] => none
        | ch :: _ =>
          if isBlank ch then quotedFrom quote fuel (c.skip 1) (f.addBlank ch)
          else if ch = quote then
            if quote = '\'' && c.looksAt 1 (· == '\'') then
              quotedFrom quote fuel (c.skip 2) (f.add '\'')
            else some (f.settle.result, c.skip 1)
          else if quote = '"' && ch = '\\' then
            if c.looksAt 1 isBreak then
              quotedFrom quote fuel (c.skip 1).skipBreak { f.settle with newLine := true }
            else
              match escape? c with
              | some (e, n) => quotedFrom quote fuel (c.skip n) (f.add e)
              | none => none
          else quotedFrom quote fuel (c.skip 1) (f.add ch)

/-- A quoted scalar at its opening quote. -/
def quoted? (quote : Char) (c : Cursor) : Option (String × Cursor) :=
  quotedFrom quote (c.rest.length + 1) (c.skip 1) .empty

/-! ### Plain scalars -/

def isFlowIndicator (c : Char) : Bool :=
  c == ',' || c == '[' || c == ']' || c == '\x7b' || c == '\x7d'

/-- Whether a plain scalar ends at a character: at a colon with a blank after it, and inside
brackets at a flow indicator. -/
def endsPlain (flow : Bool) (c : Cursor) : Bool :=
  (c.starts ':' && c.blankAt 1) || (flow && c.looksAt 0 isFlowIndicator)

/-- A colon inside brackets that touches an indicator. -/
def misplacedColon (flow : Bool) (c : Cursor) : Bool :=
  flow && c.starts ':' && c.looksAt 1 fun ch => isFlowIndicator ch || ch == '?'

/-- Whether the text after blanks does not belong to the scalar any more: a comment, or a line
that is not indented enough. -/
def leavesPlain (flow : Bool) (indent : Nat) (c : Cursor) (f : Fold) : Bool :=
  f.isPending && (c.starts '#' || (!flow && c.column < indent))

/-- The text of a plain scalar, and the place after it and the blanks that follow. -/
def plainFrom (flow : Bool) (indent : Nat) : Nat → Cursor → Fold → Option (Fold × Cursor)
  | 0, _, _ => none
  | fuel + 1, c, f =>
    match c.takeBreak? with
    | some (lineEnd, next) => plainFrom flow indent fuel next (f.addBreak lineEnd)
    | none =>
      match c.rest with
      | [] => some (f, c)
      | ch :: _ =>
        if isBlank ch then
          if f.newLine && c.column < indent && ch == '\t' then none
          else plainFrom flow indent fuel (c.skip 1) (f.addBlank ch)
        else if c.atDocumentMark || leavesPlain flow indent c f then some (f, c)
        else if misplacedColon flow c then none
        else if endsPlain flow c then some (f, c)
        else plainFrom flow indent fuel (c.skip 1) (f.add ch)

def plain? (flow : Bool) (indent : Nat) (c : Cursor) : Option (Fold × Cursor) :=
  plainFrom flow indent (c.rest.length + 1) c .empty

/-! ### Block scalars -/

/-- What becomes of the line ends after the last line of a block scalar. -/
inductive Chomping where
  | strip
  | clip
  | keep
  deriving DecidableEq, Repr

/-- What a block scalar's first line says: the chomping, and the indentation below the
surrounding one, if it is given. -/
structure BlockHeader where
  chomping : Chomping
  indent : Option Nat

def chomping? : Char → Option Chomping
  | '+' => some .keep
  | '-' => some .strip
  | _ => none

def indentDigit? (c : Char) : Option Nat :=
  if '0' ≤ c ∧ c ≤ '9' then some (c.toNat - '0'.toNat) else none

/-- The two indicators in either order. -/
def headerOf : List Char → BlockHeader × Nat
  | a :: b :: _ =>
    match chomping? a, indentDigit? a, chomping? b, indentDigit? b with
    | some k, _, _, some n => (⟨k, some n⟩, 2)
    | some k, _, _, none => (⟨k, none⟩, 1)
    | none, some n, some k, _ => (⟨k, some n⟩, 2)
    | none, some n, none, _ => (⟨.clip, some n⟩, 1)
    | none, none, _, _ => (⟨.clip, none⟩, 0)
  | [a] =>
    match chomping? a, indentDigit? a with
    | some k, _ => (⟨k, none⟩, 1)
    | none, some n => (⟨.clip, some n⟩, 1)
    | none, none => (⟨.clip, none⟩, 0)
  | [] => (⟨.clip, none⟩, 0)

/-- The header at its `|` or `>`, up to the start of the next line. An indentation of zero is
none. -/
def blockHeader? (c : Cursor) : Option (BlockHeader × Cursor) :=
  let c := c.skip 1
  let (header, n) := headerOf c.rest
  let c := ((c.skip n).skipWhile isBlank).skipComment
  if header.indent = some 0 || !c.lineEndAt 0 then none else some (header, c.skipBreak)

/-- Empty lines before a line of a block scalar. -/
structure EmptyLines where
  /-- Their ends, in reverse. -/
  breaks : List Char
  /-- The longest indentation among them and the line. -/
  widest : Nat
  next : Cursor

/-- Passes over indentation and empty lines. Without a given indentation every space is
indentation. A tab is no indentation. -/
def emptyLines? (indent : Option Nat) : Nat → EmptyLines → Option EmptyLines
  | 0, _ => none
  | fuel + 1, e =>
    let spaces := (e.next.rest.takeWhile (· == ' ')).length
    let inside := match indent with
      | some n => min spaces (n - e.next.column)
      | none => spaces
    let c := e.next.skip inside
    let widest := max e.widest c.column
    if c.starts '\t' && indent.all (c.column < ·) then none
    else
      match c.takeBreak? with
      | some (lineEnd, next) => emptyLines? indent fuel ⟨lineEnd.reverse ++ e.breaks, widest, next⟩
      | none => some ⟨e.breaks, widest, c⟩

/-- The lines of a block scalar so far. -/
structure BlockText where
  /-- In reverse. -/
  text : List Char
  /-- The end of the last line. -/
  lastBreak : List Char
  /-- The ends of the empty lines after it, in reverse. -/
  moreBreaks : List Char
  /-- Whether the last line starts with a blank. -/
  startsBlank : Bool

/-- The text in front of a further line, in reverse. Folding joins two lines that do not start
with a blank. -/
def BlockText.before (b : BlockText) (folded blank : Bool) : List Char :=
  if folded && b.lastBreak == ['\n'] && !b.startsBlank && !blank then
    if b.moreBreaks.isEmpty then ' ' :: b.text else b.moreBreaks ++ b.text
  else b.moreBreaks ++ b.lastBreak.reverse ++ b.text

/-- The lines at an indentation. -/
def blockLines? (folded : Bool) (indent : Nat) : Nat → Cursor → BlockText → Option (BlockText × Cursor)
  | 0, _, _ => none
  | fuel + 1, c, b =>
    if c.column = indent && !c.atEnd then do
      let blank := c.looksAt 0 isBlank
      let (line, afterLine) := c.takeWhile (!isBreak ·)
      let lineEnd := match afterLine.takeBreak? with
        | some (lineEnd, _) => lineEnd
        | none => []
      let e ← emptyLines? (some indent) fuel ⟨[], 0, afterLine.skipBreak⟩
      blockLines? folded indent fuel e.next
        ⟨line.reverse ++ b.before folded blank, lineEnd, e.breaks, blank⟩
    else some (b, c)

/-- The text after the tail is chomped. -/
def BlockText.result (b : BlockText) (k : Chomping) : String :=
  let tail := match k with
    | .strip => []
    | .clip => b.lastBreak.reverse
    | .keep => b.moreBreaks ++ b.lastBreak.reverse
  String.ofList (tail ++ b.text).reverse

/-- A block scalar at its `|` or `>`, in a collection at an indentation. -/
def block? (folded : Bool) (outer : Int) (c : Cursor) : Option (String × Cursor) := do
  let fuel := c.rest.length + 1
  let (header, c) ← blockHeader? c
  let given := header.indent.map fun n => (max outer 0).toNat + n
  let e ← emptyLines? given fuel ⟨[], 0, c⟩
  let indent := given.getD (max e.widest (max (outer + 1) 1).toNat)
  let (b, c) ← blockLines? folded indent fuel e.next ⟨[], [], e.breaks, false⟩
  return (b.result header.chomping, c)

end Lending.Yaml
