import Lending.Text
import Lending.Yaml.Stream

/-! The definitions of a policy text.

A definition starts at a line with no indentation that begins with the name of its kind. In a
text with several definitions a mark `---` divides them into documents; where the author left
it out, `divided` puts it in. -/
namespace Lending.Policy

/-- The names with which definitions begin. -/
def definitionKeys : List String :=
  ["catalog:", "tree:", "strategy:", "assessment:"]

def startsWith (key line : List Char) : Bool :=
  key.isPrefixOf line

/-- Whether a definition starts at a line. -/
def startsDefinition (line : String) : Bool :=
  !(startsWith [' '] line.toList || startsWith ['\t'] line.toList) &&
    definitionKeys.any fun key => startsWith key.toList (Text.trim line).toList

/-- The mark that divides documents. -/
def divider : String :=
  "---"

/-- Blank lines and comments say nothing about where a document ends. -/
def isSilent (line : String) : Bool :=
  Text.isBlankText line || startsWith ['#'] (Text.trim line).toList

/-- Whether the last line that says something is a divider, after a further line. -/
def dividedAfter (before : Bool) (line : String) : Bool :=
  if Text.trim line = divider then true else before && isSilent line

/-- Lines with dividers put in before the definitions that need one. `seen` tells whether a
definition came before, `after` whether a divider did. -/
def dividedFrom (seen after : Bool) : List String → List String
  | [] => []
  | line :: rest =>
    let starts := startsDefinition line
    let divided := line :: dividedFrom (seen || starts) (dividedAfter after line) rest
    if starts && seen && !after then divider :: divided else divided

/-- The lines of a text, with a divider before each definition but the first. -/
def divided (lines : List String) : List String :=
  dividedFrom false false lines

/-- A text of lines, each of which has its end. -/
def ofLines (lines : List String) : String :=
  String.join (lines.map (· ++ "\n"))

/-- The documents of a policy text; those that are null drop out. -/
def documents (s : String) : Option (List Document) :=
  (Yaml.readAll (ofLines (divided (Text.lines s)))).map fun ds => ds.filter (!Document.isNull ·)

end Lending.Policy
