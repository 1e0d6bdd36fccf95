import Lending.Document

/-! Writing documents as JSON texts.

A real number always shows a point or an exponent, so that it is read as a real number
again; JSON has no text for the numbers that are not finite, and they become null. -/
namespace Lending.Json

def hexDigit (n : Nat) : Char :=
  if n < 10 then Char.ofNat ('0'.toNat + n) else Char.ofNat ('a'.toNat + (n - 10))

/-- The letter of a character that has an escape of its own. -/
def shortEscape? : Char → Option Char
  | '"' => some '"'
  | '\\' => some '\\'
  | '\x08' => some 'b'
  | '\x0c' => some 'f'
  | '\n' => some 'n'
  | '\r' => some 'r'
  | '\t' => some 't'
  | _ => none

/-- A character inside of a quoted text. -/
def escapedChar (c : Char) : List Char :=
  match shortEscape? c with
  | some letter => ['\\', letter]
  | none =>
    if c.toNat < 0x20 then
      ['\\', 'u', '0', '0', hexDigit (c.toNat / 16), hexDigit (c.toNat % 16)]
    else [c]

def quoted (s : String) : String :=
  String.ofList ('"' :: (s.toList.flatMap escapedChar ++ ['"']))

def realText (x : Float) : String :=
  if x.isFinite then Layout.marked.text x else "null"

mutual

/-- The JSON text of a document. Tags are dropped, and so are members whose key is not a
text. -/
def write : Document → String
  | .null => "null"
  | .flag b => if b then "true" else "false"
  | .integer n => n.repr
  | .real x => realText x
  | .text s => quoted s
  | .sequence items => "[" ++ Text.joined "," (writeItems items) ++ "]"
  | .mapping members => "\x7b" ++ Text.joined "," (writeMembers members) ++ "\x7d"
  | .tagged _ content => write content

def writeItems : List Document → List String
  | [] => []
  | d :: rest => write d :: writeItems rest

def writeMembers : List (Document × Document) → List String
  | [] => []
  | (.text key, d) :: rest => (quoted key ++ ":" ++ write d) :: writeMembers rest
  | _ :: rest => writeMembers rest

end

end Lending.Json
