import Lending.Tree.Arena

/-! The links of a tree by position.

In two passes over a list of nodes the links between keys become links between positions: the first
pass enters each key at the position of its node, the second puts the position of each node among
the children of its parent. -/
namespace Lending.Tree

/-- Where each key is in a list of nodes, and where the children of each of its nodes are. -/
structure Links where
  positions : Dict Nat
  children : List (List Nat)

/-- Enters the key of a node. A key that is there already is an error. -/
def enterKey (positions : Dict Nat) (entry : Node × Nat) : Except PolicyError (Dict Nat) :=
  if positions.contains entry.1.key then .error (.duplicateNode entry.1.key)
  else .ok (positions.insert entry.1.key entry.2)

def enterKeys (nodes : List Node) : Except PolicyError (Dict Nat) :=
  nodes.zipIdx.foldlM enterKey []

/-- Puts a node last among the children of its parent. A parent that is not there is an error. -/
def linkNode (positions : Dict Nat) (children : List (List Nat)) (entry : Node × Nat) :
    Except PolicyError (List (List Nat)) :=
  match entry.1.parent with
  | none => .ok children
  | some parent =>
    match positions.get? parent with
    | none => .error (.unknownParent entry.1.key parent)
    | some p => .ok (children.modify p (· ++ [entry.2]))

def linkNodes (positions : Dict Nat) (nodes : List Node) : Except PolicyError (List (List Nat)) :=
  nodes.zipIdx.foldlM (linkNode positions) (List.replicate nodes.length [])

def links (nodes : List Node) : Except PolicyError Links := do
  let positions ← enterKeys nodes
  let children ← linkNodes positions nodes
  return ⟨positions, children⟩

end Lending.Tree
