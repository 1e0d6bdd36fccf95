import Lending.Yaml.Token

/-! Nodes as they are written.

A node is a scalar, a sequence, a mapping or an alias. Anchors name nodes and aliases refer to
names; what an alias stands for is not settled here. Nodes are read from the front of the token
list. -/
namespace Lending.Yaml

/-- A node. Tags are in full; `Label` is what anchors and aliases are known by. -/
inductive Node (Label : Type) where
  | scalar (tag : Option String) (text : String) (plain : Bool)
  | sequence (tag : Option String) (items : List (Node Label))
  | mapping (tag : Option String) (members : List (Node Label × Node Label))
  | anchored (label : Label) (content : Node Label)
  | alias (label : Label)
  deriving Inhabited

/-- A node whose anchors and aliases have names. -/
abbrev NamedNode := Node String

/-- A step of the reading, which can find a fault; the state is the tokens that are still to be
read. -/
abbrev Reader := StateT (List Token) Option

namespace Reader

def fault {α : Type} : Reader α :=
  fun _ => none

def peek : Reader Token := do
  return (← get).headD .streamEnd

def drop : Reader Unit :=
  modify (List.drop 1)

/-- Whether the next token is one of these. -/
def sees (ts : List Token) : Reader Bool := do
  return ts.contains (← peek)

/-- Passes over a token that has to come next. -/
def expect (t : Token) : Reader Unit := do
  if ← sees [t] then drop else fault

/-- Passes over a token if it comes next. -/
def passes (t : Token) : Reader Bool := do
  if ← sees [t] then
    drop
    return true
  else return false

/-- What stands where a node is left out. -/
def emptyNode : NamedNode :=
  .scalar none "" true

/-! ### Properties -/

/-- The anchor and the tag of a node, in either order. -/
structure Properties where
  anchor : Option String
  tag : Option TagName

def takeAnchor : Reader (Option String) := do
  match ← peek with
  | .anchor name => drop; return some name
  | _ => return none

def takeTag : Reader (Option TagName) := do
  match ← peek with
  | .tag name => drop; return some name
  | _ => return none

def properties : Reader Properties := do
  match ← takeAnchor with
  | some anchor => return ⟨some anchor, ← takeTag⟩
  | none =>
    match ← takeTag with
    | some tag => return ⟨← takeAnchor, some tag⟩
    | none => return ⟨none, none⟩

/-- The tag in full; its handle has to be declared. -/
def fullTag (h : Handles) (tag : Option TagName) : Reader (Option String) := do
  match tag with
  | none => return none
  | some t =>
    match h.resolve? t with
    | some full => return full
    | none => fault

def anchor (name : Option String) (content : NamedNode) : NamedNode :=
  match name with
  | some name => .anchored name content
  | none => content

/-! ### Nodes -/

/-- Where a node stands. -/
structure Place where
  /-- Outside of brackets. -/
  block : Bool
  /-- The items of a sequence may stand at the column of the mapping around it. -/
  indentless : Bool

namespace Place

/-- In a collection that is laid out by indentation. -/
def inBlock : Place :=
  ⟨true, false⟩

/-- In a mapping that is laid out by indentation. -/
def inMapping : Place :=
  ⟨true, true⟩

def inBrackets : Place :=
  ⟨false, false⟩

end Place

/-- A scalar. A lone exclamation mark says nothing about it. -/
def scalar (tag : Option String) (text : String) (plain : Bool) : NamedNode :=
  .scalar (tag.filter (· != "!")) text plain

/-- A node that is left out, which its properties have to show. -/
def leftOut (tag : Option String) (hasProperties : Bool) : Reader NamedNode :=
  if hasProperties then return .scalar tag "" true else fault

/-- A node, or nothing where one of these tokens shows that it is left out. -/
def orEmpty (ts : List Token) (n : Reader NamedNode) : Reader NamedNode := do
  if ← sees ts then return emptyNode else n

/-- The value of a member, which a colon announces. -/
def memberValue (ts : List Token) (n : Reader NamedNode) : Reader NamedNode := do
  if ← passes .value then orEmpty ts n else return emptyNode

mutual

/-- The next node. -/
def node (h : Handles) : Nat → Place → Reader NamedNode
  | 0, _ => fault
  | fuel + 1, p => do
    match ← peek with
    | .alias name =>
      drop
      return .alias name
    | _ =>
      let props ← properties
      let tag ← fullTag h props.tag
      let n ← content h fuel p tag (props.anchor.isSome || props.tag.isSome)
      return anchor props.anchor n

/-- What comes after a node's properties, of which there may be none. -/
def content (h : Handles) : Nat → Place → Option String → Bool → Reader NamedNode
  | 0, _, _, _ => fault
  | fuel + 1, p, tag, hasProperties => do
    let t ← peek
    match t, p.block, p.indentless with
    | .scalar text plain, _, _ =>
      drop
      return scalar tag text plain
    | .flowSequence, _, _ =>
      drop
      return .sequence tag (← flowItems h fuel true)
    | .flowMapping, _, _ =>
      drop
      return .mapping tag (← flowMembers h fuel true)
    | .item, _, true => return .sequence tag (← indentlessItems h fuel)
    | .blockSequence, true, _ =>
      drop
      return .sequence tag (← blockItems h fuel)
    | .blockMapping, true, _ =>
      drop
      return .mapping tag (← blockMembers h fuel)
    | _, _, _ => leftOut tag hasProperties

/-- The items of a sequence in brackets, up to its end. -/
def flowItems (h : Handles) : Nat → Bool → Reader (List NamedNode)
  | 0, _ => fault
  | fuel + 1, first => do
    if ← passes .flowSequenceEnd then return []
    if !first then expect .comma
    if ← passes .flowSequenceEnd then return []
    let n ←
      if ← passes .key then
        let m ← singleMember h fuel
        pure (.mapping none [m])
      else node h fuel .inBrackets
    return n :: (← flowItems h fuel false)

/-- The only member of a mapping that is an item in brackets. Where its key is left out the
token behind the key's mark is passed over with it. -/
def singleMember (h : Handles) : Nat → Reader (NamedNode × NamedNode)
  | 0 => fault
  | fuel + 1 => do
    let key ←
      if ← sees [.value, .comma, .flowSequenceEnd] then
        drop
        pure emptyNode
      else node h fuel .inBrackets
    let v ← memberValue [.comma, .flowSequenceEnd] (node h fuel .inBrackets)
    return (key, v)

/-- The members of a mapping in brackets, up to its end. -/
def flowMembers (h : Handles) : Nat → Bool → Reader (List (NamedNode × NamedNode))
  | 0, _ => fault
  | fuel + 1, first => do
    if ← passes .flowMappingEnd then return []
    if !first then expect .comma
    if ← passes .flowMappingEnd then return []
    let m ←
      if ← passes .key then do
        let key ← orEmpty [.value, .comma, .flowMappingEnd] (node h fuel .inBrackets)
        let v ← memberValue [.comma, .flowMappingEnd] (node h fuel .inBrackets)
        pure (key, v)
      else do
        let key ← node h fuel .inBrackets
        pure (key, emptyNode)
    return m :: (← flowMembers h fuel false)

/-- The items of a sequence with an indentation of its own, up to its end. -/
def blockItems (h : Handles) : Nat → Reader (List NamedNode)
  | 0 => fault
  | fuel + 1 => do
    if ← passes .blockEnd then return []
    expect .item
    let n ← orEmpty [.item, .blockEnd] (node h fuel .inBlock)
    return n :: (← blockItems h fuel)

/-- The items of a sequence at the column of the mapping around it. -/
def indentlessItems (h : Handles) : Nat → Reader (List NamedNode)
  | 0 => fault
  | fuel + 1 => do
    if ← passes .item then
      let n ← orEmpty [.item, .key, .value, .blockEnd] (node h fuel .inBlock)
      return n :: (← indentlessItems h fuel)
    else return []

/-- The members of a mapping with an indentation, up to its end. -/
def blockMembers (h : Handles) : Nat → Reader (List (NamedNode × NamedNode))
  | 0 => fault
  | fuel + 1 => do
    if ← passes .blockEnd then return []
    expect .key
    let key ← orEmpty [.key, .value, .blockEnd] (node h fuel .inMapping)
    let v ← memberValue [.key, .value, .blockEnd] (node h fuel .inMapping)
    return (key, v) :: (← blockMembers h fuel)

end

end Reader

end Lending.Yaml
