import Lending.Tree.Arena
import Lending.Tree.Branching

/-! Routing: the way of a context through a tree.

The walk starts at the root, takes at each branching node the child of the chosen branch, and
passes through annotations. It ends at a terminal, or at a branch without a child; there the
tree's default strategy takes over if there is one. The walk is a function of the tree and the
context alone. -/
namespace Lending

/-- What a route ends at. -/
inductive Target where
  | strategy (id : String)
  | assessment (id : String)
  deriving DecidableEq, Repr

namespace Target

def id : Target → String
  | .strategy id => id
  | .assessment id => id

def kindName : Target → String
  | .strategy _ => "strategy"
  | .assessment _ => "assessment"

def render (t : Target) : String :=
  s!"{t.kindName} '{t.id}'"

end Target

/-- How a walk ends. -/
inductive Ending where
  | arrived (node : Node)
  /-- The chosen branch of the node has no child. -/
  | dangling (node : Node) (branch : String)
  /-- An annotation without exactly one child. -/
  | stuck (node : Node)
  /-- A node that was entered before. -/
  | circling (node : Node)

structure Walk where
  path : List PathStep
  ending : Ending

structure Routing where
  strategyId : Option String
  assessmentId : Option String
  params : Dict Value
  /-- The terminal reached; none when the default strategy was taken. -/
  terminalNode : Option String
  usedDefault : Bool
  /-- The decisions at branching nodes, in order. -/
  path : List PathStep

namespace Tree

/-- Walks on from a node. Every node is entered once: `fresh` are the keys of those that were not
entered so far. -/
def walkFrom (t : Tree) (ctx : Context) (fresh : List String) (n : Node) : Walk :=
  if _ : n.key ∈ fresh then
    match n.step? ctx with
    | some step =>
      match t.childFor n.key step.branch with
      | some child =>
        let rest := walkFrom t ctx (fresh.erase n.key) child
        ⟨step :: rest.path, rest.ending⟩
      | none => ⟨[step], .dangling n step.branch⟩
    | none =>
      if n.isTerminal then ⟨[], .arrived n⟩
      else
        match t.children n.key with
        | [child] => walkFrom t ctx (fresh.erase n.key) child
        | _ => ⟨[], .stuck n⟩
  else ⟨[], .circling n⟩
termination_by fresh.length
decreasing_by
  all_goals
    have entering : n.key ∈ fresh := by assumption
    have := List.length_pos_of_mem entering
    rw [List.length_erase_of_mem entering]
    omega

/-- The walk from the root. -/
def walk (t : Tree) (ctx : Context) : Walk :=
  t.walkFrom ctx (t.nodes.map Node.key) t.root

end Tree

namespace Routing

/-- The end of a path at a node. -/
def arrived (path : List PathStep) (n : Node) : Routing :=
  { strategyId := n.strategyRef?
    assessmentId := n.assessmentRef?
    params := match n.kind with
      | .strategy _ params => params
      | _ => []
    terminalNode := some n.key
    usedDefault := false
    path := path }

/-- The default strategy at the end of a path. -/
def byDefault (path : List PathStep) (strategy : String) : Routing :=
  { strategyId := some strategy
    assessmentId := none
    params := []
    terminalNode := none
    usedDefault := true
    path := path }

def target? (r : Routing) : Option Target :=
  match r.strategyId with
  | some id => some (.strategy id)
  | none => r.assessmentId.map .assessment

def nodeKeys (r : Routing) : List String :=
  r.path.map PathStep.nodeKey

end Routing

namespace Tree

/-- The route of a context. -/
def route (t : Tree) (ctx : Context) : Except PolicyError Routing :=
  let w := t.walk ctx
  match w.ending with
  | .arrived n => .ok (.arrived w.path n)
  | .dangling n branch =>
    match t.defaultStrategy with
    | some strategy => .ok (.byDefault w.path strategy)
    | none => .error (.danglingBranch n.key branch)
  | .stuck n => .error (.invalidNode n.key .annotationPassing)
  | .circling n => .error (.cycle n.key)

/-- The warnings of a route: those of the nodes on the path, and the default strategy's. -/
def routeWarnings (t : Tree) (ctx : Context) : List Warning :=
  let w := t.walk ctx
  let ofStep (s : PathStep) : List Warning :=
    match t.node? s.nodeKey with
    | some n => n.warnings ctx
    | none => []
  let ofEnding : List Warning :=
    match w.ending, t.defaultStrategy with
    | .dangling n branch, some strategy => [.defaultStrategy n.key branch strategy]
    | _, _ => []
  w.path.flatMap ofStep ++ ofEnding

/-- Routing with its warnings. -/
def routeNoted (t : Tree) (ctx : Context) : Noted PolicyError Routing :=
  ⟨t.routeWarnings ctx, t.route ctx⟩

end Tree

end Lending
