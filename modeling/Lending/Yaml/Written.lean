import Lending.Document

/-! Documents that can be written in YAML.

A document is written with its texts in quotes. All of it can be written but long keys: a key
ends 1024 characters after its start at the latest, or it is not known for one. -/
namespace Lending.Yaml

/-- How many characters a character takes between quotes. -/
def quotedWidth (c : Char) : Nat :=
  if c == '"' || c == '\\' then 2
  else if ' ' ≤ c && c ≤ '~' then 1
  else 10

/-- The longest key, with its quotes. -/
def maxKeyWidth : Nat := 1024

def isWritableKey : Document → Bool
  | .text s => s.toList.foldl (fun width c => width + quotedWidth c) 2 ≤ maxKeyWidth
  | _ => true

mutual

def isWritable : Document → Bool
  | .sequence items => areWritable items
  | .mapping members => membersAreWritable members
  | .tagged _ content => isWritable content
  | _ => true

def areWritable : List Document → Bool
  | [] => true
  | d :: rest => isWritable d && areWritable rest

def membersAreWritable : List (Document × Document) → Bool
  | [] => true
  | (key, v) :: rest => isWritableKey key && isWritable v && membersAreWritable rest

end

end Lending.Yaml
