import Lending.Policy.StrategyDocument
import Lending.Policy.TreeDocument

/-! Bundles: the policy documents of one or several sources, sorted by what they are. A
document is known by its only member; a bundle has at most one catalog. -/
namespace Lending

structure Bundle where
  catalog : Option CatalogChanges
  trees : List TreeDraft
  strategies : List Strategy
  assessments : List Assessment

namespace Bundle

def empty : Bundle :=
  ⟨none, [], [], []⟩

instance : Inhabited Bundle :=
  ⟨empty⟩

def isEmpty (b : Bundle) : Bool :=
  b.catalog.isNone && b.trees.isEmpty && b.strategies.isEmpty && b.assessments.isEmpty

/-- Two bundles as one, which can have only one catalog. -/
def merge (b c : Bundle) : Except ReadError Bundle :=
  match b.catalog, c.catalog with
  | some _, some _ => .error .secondCatalog
  | _, _ =>
    .ok
      { catalog := b.catalog <|> c.catalog
        trees := b.trees ++ c.trees
        strategies := b.strategies ++ c.strategies
        assessments := b.assessments ++ c.assessments }

/-- Merges another bundle into the one at hand, in place and part by part. -/
def takeIn (other : Bundle) : EStateM ReadError Bundle Unit := do
  if let some catalog := other.catalog then
    if (← get).catalog.isSome then throw .secondCatalog
    modify fun b => { b with catalog := some catalog }
  modify fun b => { b with trees := b.trees ++ other.trees }
  modify fun b => { b with strategies := b.strategies ++ other.strategies }
  modify fun b => { b with assessments := b.assessments ++ other.assessments }

/-- The bundle of one document, which is at a place in its source. -/
def ofDocument (place : Nat) (d : Document) : Noted ReadError Bundle :=
  match d.get? "catalog", d.get? "tree", d.get? "strategy", d.get? "assessment" with
  | some body, _, _, _ => do
    let c ← CatalogChanges.read body
    return { empty with catalog := some c }
  | none, some body, _, _ => do
    let t ← TreeDraft.read body
    return { empty with trees := [t] }
  | none, none, some body, _ => do
    let s ← Strategy.read body
    return { empty with strategies := [s] }
  | none, none, none, some body => do
    let a ← Assessment.read body
    return { empty with assessments := [a] }
  | none, none, none, none => Noted.fail (.unknownDocument place d.memberNames)

/-- Adds documents one by one, the first of them at a place in its source. -/
def addDocuments (b : Bundle) (place : Nat) : List Document → Noted ReadError Bundle
  | [] => return b
  | d :: rest => do
    let single ← ofDocument place d
    let merged ← b.merge single
    addDocuments merged (place + 1) rest

/-- The bundle of a source's documents. -/
def ofDocuments (documents : List Document) : Noted ReadError Bundle :=
  empty.addDocuments 1 documents

end Bundle

end Lending
