import Lending.Yaml.Cursor
import Lending.Json.Reader

/-! Tags: the marks that say what a node is.

A tag is a handle and a suffix. What a handle stands for is declared at the start of a
document; `!` stands for itself and `!!` for the core types. -/
namespace Lending.Yaml

/-- A tag as it is written: its handle, and the bytes behind it. A tag without a handle is
complete. -/
structure TagName where
  handle : String
  suffix : List UInt8
  deriving DecidableEq, Repr

namespace TagName

/-- The characters of tags besides those of names. A percent sign starts an escaped byte. -/
def isTagMark (c : Char) : Bool :=
  [';', '/', '?', ':', '@', '&', '=', '+', '$', '.', '!', '~', '*', '\'', '(', ')', '%'].contains c

/-- The characters that may stand in a complete tag besides. -/
def isFlowMark (c : Char) : Bool :=
  c == ',' || c == '[' || c == ']'

def isTagChar (complete : Bool) (c : Char) : Bool :=
  isNameChar c || isTagMark c || (complete && isFlowMark c)

/-- The byte of an escape. -/
def escapedByte? (cs : List Char) : Option Nat :=
  match cs with
  | '%' :: a :: b :: _ => do
    let high ← Json.hexDigit? a
    let low ← Json.hexDigit? b
    return 16 * high + low
  | _ => none

/-- The number of bytes of a character that starts with a byte. -/
def byteCount? (byte : Nat) : Option Nat :=
  if byte < 0x80 then some 1
  else if 0xc0 ≤ byte ∧ byte < 0xe0 then some 2
  else if 0xe0 ≤ byte ∧ byte < 0xf0 then some 3
  else if 0xf0 ≤ byte ∧ byte < 0xf8 then some 4
  else none

/-- So many further bytes of a character. What character they make is not asked. -/
def furtherBytes? : Nat → List Char → Option (List UInt8)
  | 0, _ => some []
  | n + 1, cs => do
    let byte ← escapedByte? cs
    if 0x80 ≤ byte ∧ byte < 0xc0 then
      let others ← furtherBytes? n (cs.drop 3)
      return UInt8.ofNat byte :: others
    else none

/-- The bytes of an escaped character. -/
def escapedBytes? (cs : List Char) : Option (List UInt8) := do
  let byte ← escapedByte? cs
  let count ← byteCount? byte
  let others ← furtherBytes? (count - 1) (cs.drop 3)
  return UInt8.ofNat byte :: others

/-- Takes the characters of a tag, all of them of ASCII, with escapes replaced. The bytes taken
so far stand in reverse. -/
def takeFrom (complete : Bool) : Nat → Cursor → List UInt8 → Option (List UInt8 × Cursor)
  | 0, _, _ => none
  | fuel + 1, c, taken =>
    if c.starts '%' then
      match escapedBytes? c.rest with
      | some bytes => takeFrom complete fuel (c.skip (3 * bytes.length)) (bytes.reverse ++ taken)
      | none => none
    else
      match c.rest with
      | ch :: _ =>
        if isTagChar complete ch then takeFrom complete fuel (c.skip 1) (ch.toUInt8 :: taken)
        else some (taken.reverse, c)
      | [] => some (taken.reverse, c)

def takeSuffix (complete : Bool) (c : Cursor) : Option (List UInt8 × Cursor) :=
  takeFrom complete (c.rest.length + 1) c []

/-- Takes a handle: an exclamation mark, and perhaps a name and another one. -/
def takeHandle? (c : Cursor) : Option (String × Cursor) :=
  if !c.starts '!' then none
  else
    let (name, next) := (c.skip 1).takeWhile isNameChar
    if next.starts '!' then some (String.ofList ('!' :: (name ++ ['!'])), next.skip 1)
    else some (String.ofList ('!' :: name), next)

/-- Whether what was taken as a handle has its second exclamation mark. -/
def isFullHandle (handle : String) : Bool :=
  1 < handle.length && handle.toList.getLast? == some '!'

/-- A complete tag in angle brackets. -/
def takeComplete? (c : Cursor) : Option (TagName × Cursor) := do
  let (suffix, c) ← takeSuffix true (c.skip 2)
  if suffix.isEmpty || !c.starts '>' then none else some (⟨"", suffix⟩, c.skip 1)

/-- The bytes of a text of ASCII. -/
def bytes (s : String) : List UInt8 :=
  s.toList.map Char.toUInt8

/-- What counts of the bytes of a tag: a zero ends them. -/
def upToZero (bytes : List UInt8) : List UInt8 :=
  bytes.takeWhile (· != 0)

/-- A tag with a handle; without a second exclamation mark it is the handle `!`, and alone the
mark is a tag of its own. -/
def takeShort? (c : Cursor) : Option (TagName × Cursor) := do
  let (handle, c) ← takeHandle? c
  let (suffix, c) ← takeSuffix false c
  if isFullHandle handle then
    if suffix.isEmpty then none else some (⟨handle, suffix⟩, c)
  else
    let whole := (bytes handle).drop 1 ++ suffix
    if (upToZero whole).isEmpty then some (⟨"", bytes "!"⟩, c) else some (⟨"!", whole⟩, c)

/-- A tag at its exclamation mark. A blank follows it, or a comma inside brackets. -/
def take? (flow : Bool) (c : Cursor) : Option (TagName × Cursor) := do
  let (tag, c) ← if c.looksAt 1 (· == '<') then takeComplete? c else takeShort? c
  if c.blankAt 0 || (flow && c.starts ',') then some (tag, c) else none

end TagName

/-- What the handles of a document stand for. -/
abbrev Handles := List (String × List UInt8)

namespace Handles

/-- The handles that need no declaration. -/
def standard : Handles :=
  [("!", TagName.bytes "!"), ("!!", TagName.bytes "tag:yaml.org,2002:")]

/-- The bytes of a tag in full; the first declaration of a handle counts. -/
def fullBytes? (h : Handles) (t : TagName) : Option (List UInt8) :=
  if t.handle.isEmpty then some (TagName.upToZero t.suffix)
  else (h.lookup t.handle).map fun start => TagName.upToZero start ++ TagName.upToZero t.suffix

/-- The tag that bytes make. An application's own tag that is no text is as good as none, and
any other tag that is no text is one that nobody knows. -/
def ofBytes (bytes : List UInt8) : Option String :=
  match String.fromUTF8? ⟨bytes.toArray⟩ with
  | some tag => some tag
  | none => if bytes.head? == some 0x21 then none else some "\ufffd"

/-- The tag in full of a written one. The outer `none` is a handle that is not declared. -/
def resolve? (h : Handles) (t : TagName) : Option (Option String) :=
  (h.fullBytes? t).map ofBytes

end Handles

end Lending.Yaml
