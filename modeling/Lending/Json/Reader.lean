import Lending.Json.Number

/-! Reading JSON texts.

The text is cut into tokens by a machine that sees one character at a time, and the tokens
are put together by a machine with a stack of the arrays and objects that are still open.
Both are folds, so every text is read in one pass. How number literals become doubles is left
to a `Conversion`; where none is given, to the nearest. A text that is not JSON has no outline.
In the outline a mark stands for each scalar without a value: a number beyond the doubles, or a
text with half of a surrogate pair. A text with such a mark, or with more than 127 nested
levels, has no reading as a whole; a form that passes over members passes over what is in
them. -/
namespace Lending.Json

/-! ### Tokens -/

inductive Token where
  | arrayStart
  | arrayEnd
  | objectStart
  | objectEnd
  | comma
  | colon
  | scalar (d : Document)

/-- What a run of characters outside of texts stands for. -/
def word? (reals : Conversion) (cs : List Char) : Option Token :=
  match String.ofList cs with
  | "null" => some (.scalar .null)
  | "true" => some (.scalar (.flag true))
  | "false" => some (.scalar (.flag false))
  | _ => (number? reals cs).map .scalar

/-- The characters of a text so far, in reverse; `none` after half of a surrogate pair. -/
abbrev Spelling := Option (List Char)

/-- Where the tokenizer is. The characters of a word so far stand in reverse. -/
inductive Mode where
  | between
  | word (letters : List Char)
  | text (chars : Spelling)
  | escape (chars : Spelling)
  /-- Inside a four-digit escape; `high` is the first half of a surrogate pair. -/
  | code (chars : Spelling) (high : Option Nat) (digits : Nat) (value : Nat)
  /-- After the first half of a surrogate pair, before the second escape's backslash. -/
  | half (chars : Spelling) (high : Nat)
  | halfEscape (chars : Spelling) (high : Nat)

structure Scan where
  mode : Mode := .between
  /-- The tokens found so far, in reverse. -/
  tokens : List Token := []

def isSpace (c : Char) : Bool :=
  c == ' ' || c == '\n' || c == '\t' || c == '\r'

def punctuation? : Char → Option Token
  | '[' => some .arrayStart
  | ']' => some .arrayEnd
  | '\x7b' => some .objectStart
  | '\x7d' => some .objectEnd
  | ',' => some .comma
  | ':' => some .colon
  | _ => none

def hexDigit? (c : Char) : Option Nat :=
  if '0' ≤ c ∧ c ≤ '9' then some (c.toNat - '0'.toNat)
  else if 'a' ≤ c ∧ c ≤ 'f' then some (c.toNat - 'a'.toNat + 10)
  else if 'A' ≤ c ∧ c ≤ 'F' then some (c.toNat - 'A'.toNat + 10)
  else none

/-- The character after a backslash, the four-digit escape apart. -/
def escaped? : Char → Option Char
  | '"' => some '"'
  | '\\' => some '\\'
  | '/' => some '/'
  | 'b' => some '\x08'
  | 'f' => some '\x0c'
  | 'n' => some '\n'
  | 'r' => some '\r'
  | 't' => some '\t'
  | _ => none

/-- The character of a surrogate pair. -/
def ofPair (high low : Nat) : Char :=
  Char.ofNat (0x10000 + (high - 0xd800) * 0x400 + (low - 0xdc00))

/-- The mode after a complete four-digit escape. -/
def afterCode (chars : Spelling) (high : Option Nat) (value : Nat) : Mode :=
  let isLow := 0xdc00 ≤ value && value < 0xe000
  match high with
  | none =>
    if 0xd800 ≤ value && value < 0xdc00 then .half chars value
    else if isLow then .text none
    else .text (chars.map (Char.ofNat value :: ·))
  | some high => if isLow then .text (chars.map (ofPair high value :: ·)) else .text none

/-- Outside of texts a space or a punctuation mark ends a word. -/
def outside (reals : Conversion) (tokens : List Token) (letters : List Char) (c : Char) :
    Option Scan := do
  let finished ← if letters.isEmpty then some tokens
    else (word? reals letters.reverse).map (· :: tokens)
  if isSpace c then some ⟨.between, finished⟩
  else if c = '"' then some ⟨.text (some []), finished⟩
  else
    match punctuation? c with
    | some t => some ⟨.between, t :: finished⟩
    | none => some ⟨.word (c :: letters), tokens⟩

/-- The document of a complete text. -/
def ofSpelling : Spelling → Document
  | some chars => .text (String.ofList chars.reverse)
  | none => unreadable

def inText (tokens : List Token) (chars : Spelling) (c : Char) : Option Scan :=
  if c = '"' then some ⟨.between, .scalar (ofSpelling chars) :: tokens⟩
  else if c = '\\' then some ⟨.escape chars, tokens⟩
  else if c.toNat < 0x20 then none
  else some ⟨.text (chars.map (c :: ·)), tokens⟩

def inEscape (tokens : List Token) (chars : Spelling) (c : Char) : Option Scan :=
  if c = 'u' then some ⟨.code chars none 0 0, tokens⟩
  else (escaped? c).map fun e => ⟨.text (chars.map (e :: ·)), tokens⟩

def Scan.step (reals : Conversion) (s : Scan) (c : Char) : Option Scan :=
  match s.mode with
  | .between => outside reals s.tokens [] c
  | .word letters =>
    if isSpace c || c == '"' || (punctuation? c).isSome then outside reals s.tokens letters c
    else some ⟨.word (c :: letters), s.tokens⟩
  | .text chars => inText s.tokens chars c
  | .escape chars => inEscape s.tokens chars c
  | .code chars high digits value => do
    let value := 16 * value + (← hexDigit? c)
    if digits < 3 then some ⟨.code chars high (digits + 1) value, s.tokens⟩
    else some ⟨afterCode chars high value, s.tokens⟩
  | .half chars high =>
    if c = '\\' then some ⟨.halfEscape chars high, s.tokens⟩ else inText s.tokens none c
  | .halfEscape chars high =>
    if c = 'u' then some ⟨.code chars (some high) 0 0, s.tokens⟩ else inEscape s.tokens none c

/-- The tokens of a text. A final space ends the last word. -/
def tokens? (reals : Conversion) (s : String) : Option (List Token) :=
  match (s.toList ++ [' ']).foldlM (Scan.step reals) {} with
  | some ⟨.between, tokens⟩ => some tokens.reverse
  | _ => none

/-! ### Structure -/

/-- An open array or object with what it holds so far, in reverse. -/
inductive Frame where
  | array (items : List Document)
  | object (members : List (Document × Document)) (key : Document)

/-- What may come next. -/
inductive Expecting where
  | value
  | firstItem
  | key
  | firstKey
  | colon
  | separator
  | nothing

structure Build where
  stack : List Frame := []
  expecting : Expecting := .value
  result : Document := .null

/-- A value is complete: it goes into the innermost open frame. -/
def Build.put (b : Build) (d : Document) : Build :=
  match b.stack with
  | [] => { b with expecting := .nothing, result := d }
  | .array items :: rest => { b with stack := .array (d :: items) :: rest, expecting := .separator }
  | .object members key :: rest =>
    { b with stack := .object ((key, d) :: members) key :: rest, expecting := .separator }

def Build.enter (b : Build) (f : Frame) (e : Expecting) : Build :=
  { b with stack := f :: b.stack, expecting := e }

/-- Names the member whose value comes next. -/
def Build.name (b : Build) (key : Document) : Option Build :=
  match b.stack with
  | .object members _ :: rest =>
    some { b with stack := .object members key :: rest, expecting := .colon }
  | _ => none

def Build.close (b : Build) (isArray : Bool) : Option Build :=
  match b.stack, isArray with
  | .array items :: rest, true => some ({ b with stack := rest }.put (.sequence items.reverse))
  | .object members _ :: rest, false =>
    some ({ b with stack := rest }.put (.mapping members.reverse))
  | _, _ => none

/-- Continues the innermost frame after a comma. -/
def Build.next (b : Build) : Option Build :=
  match b.stack with
  | .array _ :: _ => some { b with expecting := .value }
  | .object _ _ :: _ => some { b with expecting := .key }
  | [] => none

/-- Whether a scalar may be a key. -/
def isKey : Document → Bool
  | .text _ | .tagged _ _ => true
  | _ => false

def Build.step (b : Build) (t : Token) : Option Build :=
  match b.expecting, t with
  | .value, .scalar d => some (b.put d)
  | .value, .arrayStart => some (b.enter (.array []) .firstItem)
  | .value, .objectStart => some (b.enter (.object [] .null) .firstKey)
  | .firstItem, .scalar d => some (b.put d)
  | .firstItem, .arrayStart => some (b.enter (.array []) .firstItem)
  | .firstItem, .objectStart => some (b.enter (.object [] .null) .firstKey)
  | .firstItem, .arrayEnd => b.close true
  | .key, .scalar d => if isKey d then b.name d else none
  | .firstKey, .scalar d => if isKey d then b.name d else none
  | .firstKey, .objectEnd => b.close false
  | .colon, .colon => some { b with expecting := .value }
  | .separator, .comma => b.next
  | .separator, .arrayEnd => b.close true
  | .separator, .objectEnd => b.close false
  | _, _ => none

/-- The document that a JSON text holds, with its marks. -/
def outline (s : String) (reals : Conversion := nearest) : Option Document := do
  match ← (← tokens? reals s).foldlM Build.step {} with
  | ⟨_, .nothing, d⟩ => some d
  | _ => none

/-! ### Readings -/

mutual

/-- Whether there are no marks, and no more than so many nested levels. -/
def isReadable : Nat → Document → Bool
  | _, .tagged _ _ => false
  | 0, .sequence _ | 0, .mapping _ => false
  | levels + 1, .sequence items => areReadable levels items
  | levels + 1, .mapping members => membersAreReadable levels members
  | _, _ => true

def areReadable : Nat → List Document → Bool
  | _, [] => true
  | levels, d :: rest => isReadable levels d && areReadable levels rest

def membersAreReadable : Nat → List (Document × Document) → Bool
  | _, [] => true
  | levels, (key, v) :: rest =>
    isReadable levels key && isReadable levels v && membersAreReadable levels rest

end

/-- The deepest nesting of arrays and objects. -/
def maxDepth : Nat := 127

/-- The document that a JSON text holds. -/
def read (s : String) (reals : Conversion := nearest) : Option Document :=
  (outline s reals).filter (isReadable maxDepth)

end Lending.Json
