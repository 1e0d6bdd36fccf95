import Lending.Json.Writer

/-! JSON texts for people to read: every item and member has a line of its own, indented by
how deep it lies. -/
namespace Lending.Json

/-- The start of a line at a depth. -/
def lineStart (depth : Nat) : String :=
  "\n" ++ String.ofList (List.replicate (2 * depth) ' ')

/-- Lines between an opening and a closing sign. -/
def block (opening closing : String) (depth : Nat) (lines : List String) : String :=
  if lines.isEmpty then opening ++ closing
  else
    opening ++ lineStart (depth + 1) ++ Text.joined ("," ++ lineStart (depth + 1)) lines ++
      lineStart depth ++ closing

mutual

/-- The JSON text of a document that begins at a depth. -/
def layOut (depth : Nat) : Document → String
  | .sequence items => block "[" "]" depth (layOutItems (depth + 1) items)
  | .mapping members => block "\x7b" "\x7d" depth (layOutMembers (depth + 1) members)
  | .tagged _ content => layOut depth content
  | .null => write .null
  | .flag b => write (.flag b)
  | .integer n => write (.integer n)
  | .real x => write (.real x)
  | .text s => write (.text s)

def layOutItems (depth : Nat) : List Document → List String
  | [] => []
  | d :: rest => layOut depth d :: layOutItems depth rest

def layOutMembers (depth : Nat) : List (Document × Document) → List String
  | [] => []
  | (.text key, d) :: rest => (quoted key ++ ": " ++ layOut depth d) :: layOutMembers depth rest
  | _ :: rest => layOutMembers depth rest

end

end Lending.Json
