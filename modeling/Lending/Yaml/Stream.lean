import Lending.Yaml.Composition

/-! The documents of a YAML text. The first document needs no start mark unless directives stand
before it; every further one needs one. -/
namespace Lending.Yaml

namespace Reader

/-- The handles that directives declare, each at most once; there is at most one version, which
is 1.1 or 1.2. -/
def directives : Nat → Bool → Handles → Reader Handles
  | 0, _, _ => fault
  | fuel + 1, versioned, h => do
    match ← peek with
    | .version major minor =>
      drop
      if versioned || major != 1 || (minor != 1 && minor != 2) then fault
      else directives fuel true h
    | .handle name start =>
      drop
      if (h.lookup name).isSome then fault else directives fuel versioned (h ++ [(name, start)])
    | _ => return h ++ Handles.standard

/-- Passes over the end marks of documents. -/
def skipEnds : Nat → Reader Unit
  | 0 => return
  | fuel + 1 => do
    if ← passes .documentEnd then skipEnds fuel

def startsHeader : Token → Bool
  | .version _ _ | .handle _ _ | .documentStart => true
  | _ => false

/-- Whether a document has nothing in it. -/
def isBlankDocument (t : Token) : Bool :=
  startsHeader t || t == .documentEnd || t == .streamEnd

/-- The content of a document. -/
def body (h : Handles) (fuel : Nat) (explicit : Bool) : Reader NamedNode := do
  if explicit && isBlankDocument (← peek) then return emptyNode else node h fuel .inBlock

/-- The contents of the documents up to the end of the text. -/
def bodies (fuel : Nat) : Nat → Bool → Reader (List NamedNode)
  | 0, _ => fault
  | more + 1, first => do
    if !first then skipEnds fuel
    if ← sees [.streamEnd] then return []
    let explicit := !first || startsHeader (← peek)
    let h ← directives fuel false []
    if explicit then expect .documentStart
    let n ← body h fuel explicit
    let _ ← passes .documentEnd
    return n :: (← bodies fuel more false)

end Reader

/-- The nodes of the documents of a text; `none` for a text that is no YAML. -/
def nodes? (s : String) : Option (List NamedNode) := do
  let tokens ← Token.ofText? s
  let fuel := 4 * tokens.length + 4
  let (nodes, _) ← (Reader.bodies fuel fuel true).run tokens
  return nodes

/-- Every document of a text; `none` for a text that is no YAML or has a document that no node
composes. -/
def readAll (s : String) : Option (List Document) := do
  (← nodes? s).mapM NamedNode.document?

/-- The document of a text that holds at most one; an empty text is null. -/
def read (s : String) : Option Document :=
  match readAll s with
  | some [] => some .null
  | some [d] => some d
  | _ => none

end Lending.Yaml
