import Lending.Failure
import Lending.Policy.Bundle
import Lending.Tree.Arena

/-! Configurations: one catalog, one tree, and the strategies and assessments it can reach,
checked against each other once so that no decision meets a dangling reference. -/
namespace Lending

structure Configuration where
  catalog : Catalog
  tree : Tree
  /-- The id of the tree's document. -/
  treeId : Option String
  /-- By id. -/
  strategies : Dict Strategy
  /-- By id. -/
  assessments : Dict Assessment

namespace Configuration

/-- Adds a strategy that is sound and new. -/
def addStrategy (known : Dict Strategy) (s : Strategy) : Except Failure (Dict Strategy) := do
  s.validate.mapError .policy
  if known.contains s.id then throw (.configuration (.duplicateStrategy s.id))
  return known.insert s.id s

/-- Adds an assessment that is sound and new. -/
def addAssessment (known : Dict Assessment) (a : Assessment) : Except Failure (Dict Assessment) := do
  a.validate.mapError .policy
  if known.contains a.id then throw (.configuration (.duplicateAssessment a.id))
  return known.insert a.id a

/-- Puts a configuration together and checks its references. -/
def assemble (catalog : Catalog) (tree : Tree) (strategies : List Strategy)
    (assessments : List Assessment) : Except Failure Configuration := do
  let byId ← strategies.foldlM addStrategy []
  let assessmentById ← assessments.foldlM addAssessment []
  (tree.checkReferences byId.contains assessmentById.contains).mapError .policy
  return ⟨catalog, tree, none, byId, assessmentById⟩

/-- The tree of an id, or the only one. -/
def selectTree (trees : List TreeDraft) (treeId : Option String) :
    Except ConfigurationFault TreeDraft :=
  match treeId, trees with
  | some id, trees =>
    match trees.find? (·.id == id) with
    | some t => .ok t
    | none => .error (.treeNotFound id)
  | none, [t] => .ok t
  | none, [] => .error .noTree
  | none, trees => .error (.severalTrees (trees.map TreeDraft.id))

/-- The catalog of a bundle: the standard rules with the bundle's changes. -/
def catalogOf (b : Bundle) : Noted PolicyError Catalog :=
  match b.catalog with
  | some changes => Catalog.ofChanges Catalog.standardRules changes
  | none => return Catalog.standard

/-- Builds from a bundle. A given default strategy replaces the tree's own. -/
def ofBundle (b : Bundle) (treeId defaultStrategy : Option String) :
    Noted Failure Configuration := do
  let catalog ← (catalogOf b).mapError .policy
  let draft ← Noted.ofExcept ((selectTree b.trees treeId).mapError .configuration)
  let tree ← (Tree.buildNoted draft.nodes (defaultStrategy <|> draft.defaultStrategy)).mapError .policy
  let c ← assemble catalog tree b.strategies b.assessments
  return { c with treeId := some draft.id }

def strategy? (c : Configuration) (id : String) : Option Strategy :=
  c.strategies.get? id

def assessment? (c : Configuration) (id : String) : Option Assessment :=
  c.assessments.get? id

end Configuration

end Lending
