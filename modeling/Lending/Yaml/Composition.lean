import Lending.Yaml.Node
import Lending.Yaml.Plain

/-! The document that a node composes.

Anchors get numbers, and an alias has the number that its name has where it stands. It stands
for the node that is the last of all to get this number: a name that is given again makes the
next new name share its number. A document is refused when its collections nest deeper than
128 levels, those of aliases included, or when aliases are followed more than a hundred times
as often as nodes are written. -/
namespace Lending.Yaml

/-- A node whose anchors and aliases have numbers. -/
abbrev NumberedNode := Node Nat

/-! ### Numbers -/

/-- The numbers of the names so far. -/
abbrev Numbering := StateT (List (String × Nat)) Option

/-- Gives a name the number of distinct names before it. -/
def declare (name : String) : Numbering Nat := do
  let names ← get
  set ((name, names.length) :: names.filter (·.1 != name))
  return names.length

/-- The number of a name, which has to be given before. -/
def numberOf (name : String) : Numbering Nat :=
  fun names => (names.lookup name).map (·, names)

namespace Node

mutual

/-- Puts numbers in the place of names. -/
def numbered : NamedNode → Numbering NumberedNode
  | .scalar tag text plain => return .scalar tag text plain
  | .sequence tag items => return .sequence tag (← numberedItems items)
  | .mapping tag members => return .mapping tag (← numberedMembers members)
  | .anchored name content => do
    let number ← declare name
    return .anchored number (← numbered content)
  | .alias name => return .alias (← numberOf name)

def numberedItems : List NamedNode → Numbering (List NumberedNode)
  | [] => return []
  | n :: rest => do
    let n ← numbered n
    return n :: (← numberedItems rest)

def numberedMembers :
    List (NamedNode × NamedNode) → Numbering (List (NumberedNode × NumberedNode))
  | [] => return []
  | (key, v) :: rest => do
    let key ← numbered key
    let v ← numbered v
    return (key, v) :: (← numberedMembers rest)

end

mutual

/-- The nodes that have numbers, in the order in which they start. -/
def holders : NumberedNode → List (Nat × NumberedNode)
  | .scalar _ _ _ | .alias _ => []
  | .sequence _ items => holdersOfItems items
  | .mapping _ members => holdersOfMembers members
  | .anchored number content => (number, content) :: content.holders

def holdersOfItems : List NumberedNode → List (Nat × NumberedNode)
  | [] => []
  | n :: rest => n.holders ++ holdersOfItems rest

def holdersOfMembers : List (NumberedNode × NumberedNode) → List (Nat × NumberedNode)
  | [] => []
  | (key, v) :: rest => key.holders ++ (v.holders ++ holdersOfMembers rest)

end

mutual

/-- The nodes that are written, a collection counting for its start and its end. -/
def size : NumberedNode → Nat
  | .scalar _ _ _ | .alias _ => 1
  | .sequence _ items => 2 + sizeOfItems items
  | .mapping _ members => 2 + sizeOfMembers members
  | .anchored _ content => content.size

def sizeOfItems : List NumberedNode → Nat
  | [] => 0
  | n :: rest => n.size + sizeOfItems rest

def sizeOfMembers : List (NumberedNode × NumberedNode) → Nat
  | [] => 0
  | (key, v) :: rest => key.size + v.size + sizeOfMembers rest

end

end Node

/-! ### Aliases -/

/-- What aliases are followed with. -/
structure Anchors where
  /-- The nodes that have numbers, the last one of a number first. -/
  holders : List (Nat × NumberedNode)
  /-- How often aliases may be followed. -/
  limit : Nat

def Anchors.ofNode (n : NumberedNode) : Anchors :=
  ⟨n.holders.reverse, 100 * n.size⟩

/-- A step of the composition; the state is how often aliases have been followed. -/
abbrev Composer := StateT Nat Option

/-- The node of an anchor. -/
def Anchors.follow (a : Anchors) (number : Nat) : Composer NumberedNode := fun followed =>
  if a.limit ≤ followed then none else (a.holders.lookup number).map (·, followed + 1)

/-! ### Documents -/

/-- The name in an application's own tag. Alone the exclamation mark is the name. -/
def ownName? (tag : Option String) : Option String :=
  match tag.map String.toList with
  | some ['!'] => some "!"
  | some ('!' :: '!' :: c :: name) => some (String.ofList (c :: name))
  | some ('!' :: name) => some (String.ofList name)
  | _ => none

/-- A document with an application's own tag, if it has one. -/
def withOwnTag (tag : Option String) (d : Document) : Document :=
  match ownName? tag with
  | some name => .tagged name d
  | none => d

/-- The document of a scalar, or a fault. -/
def ofScalarNode (tag : Option String) (text : String) (plain : Bool) : Option Document :=
  match tag, ownName? tag with
  | some tag, none => ofTagged tag text
  | _, _ => (ofScalar text plain).map (withOwnTag tag)

/-- Whether two members have one key. -/
def hasRepeatedKey : List (Document × Document) → Bool
  | [] => false
  | (key, _) :: rest => rest.any (fun m => key.same m.1) || hasRepeatedKey rest

/-- Composes nodes in so many levels of collections. `bare` says that a node's own tag does not
count, and then neither do those of the keys in it: it is a key of a mapping whose tag is an
application's own. An alias stands for its node as if it were written elsewhere. -/
def compose (a : Anchors) : Nat → Bool → NumberedNode → Composer Document
  | levels, bare, n => do
    let (n, bare) ← match n with
      | .alias number => do pure (← a.follow number, false)
      | .anchored _ content => pure (content, bare)
      | n => pure (n, bare)
    match n, levels with
    | .scalar tag text plain, _ =>
      StateT.lift (ofScalarNode (if bare then none else tag) text plain)
    | .sequence tag items, levels + 1 => do
      let items ← items.mapM (compose a levels false)
      return withOwnTag (if bare then none else tag) (.sequence items)
    | .mapping tag members, levels + 1 => do
      let bareKeys := bare || (ownName? tag).isSome
      let members ← members.mapM fun m => do
        let key ← compose a levels bareKeys m.1
        let v ← compose a levels false m.2
        return (key, v)
      if hasRepeatedKey members then StateT.lift none
      else return withOwnTag (if bare then none else tag) (.mapping members)
    | _, _ => StateT.lift none

/-- The deepest nesting of collections. -/
def maxDepth : Nat := 128

/-- The document of a node, or a fault. -/
def NamedNode.document? (n : NamedNode) : Option Document := do
  let (n, _) ← n.numbered.run []
  let (d, _) ← (compose (.ofNode n) maxDepth false n).run 0
  return d

end Lending.Yaml
