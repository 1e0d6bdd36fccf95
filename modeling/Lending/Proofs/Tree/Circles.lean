import Lending.Proofs.Tree.Sound

/-! Circles, and what building says of them.

Where the links of a list of nodes can be followed at all, building fails for a circle exactly when
there is one, wherever in the list: the search comes after the keys, the parents and the root were
checked, and no check of a single node behind it speaks of circles. -/
namespace Lending.Tree
open Relation (TransGen)

/-! ### Errors of other kinds -/

def isCircle : PolicyError → Bool
  | .cycle _ => true
  | _ => false

/-- A check that may fail, but for no circle. -/
def NoCircle {α : Type} (check : Except PolicyError α) : Prop :=
  ∀ e, check = .error e → isCircle e = false

namespace NoCircle
variable {α β : Type}

theorem ok (a : α) : NoCircle (.ok a) := by
  intro e h
  cases h

theorem error {e : PolicyError} (he : isCircle e = false) :
    NoCircle (.error e : Except PolicyError α) :=
  fun _ h => Except.error.inj h ▸ he

theorem bind {x : Except PolicyError α} {f : α → Except PolicyError β} (hx : NoCircle x)
    (hf : ∀ a, NoCircle (f a)) : NoCircle (x >>= f) := by
  cases x with
  | error e => exact error (hx e rfl)
  | ok a => exact hf a

theorem require {b : Bool} {e : PolicyError} (he : isCircle e = false) :
    NoCircle (require b e) := by
  cases b with
  | true => exact ok ()
  | false => exact error he

theorem forM {f : α → Except PolicyError Unit} {items : List α} (h : ∀ a, NoCircle (f a)) :
    NoCircle (items.forM f) := by
  induction items with
  | nil => exact ok ()
  | cons a rest ih => exact (h a).bind fun _ => ih

end NoCircle

theorem noCircle_requireField (key field : String) : NoCircle (requireField key field) := by
  rw [requireField]
  split
  · exact .ok ()
  · exact .error rfl

theorem noCircle_requireOwnField (key : String) (spec : ConditionSpec) :
    NoCircle (requireOwnField key spec) := by
  rw [requireOwnField]
  split
  · exact .error rfl
  · exact noCircle_requireField key _

theorem noCircle_checkCondition (key : String) (spec : ConditionSpec) :
    NoCircle (checkCondition key spec) := by
  have hfield := noCircle_requireOwnField key spec
  rw [checkCondition]
  split
  · exact hfield.bind fun _ => (NoCircle.require rfl).bind fun _ =>
      (NoCircle.require rfl).bind fun _ => .require rfl
  · refine (NoCircle.require rfl).bind fun _ => NoCircle.bind ?_ fun _ => .require rfl
    exact NoCircle.forM fun c => noCircle_requireField key c.field
  · exact hfield.bind fun _ => .require rfl

theorem noCircle_checkBranches (t : Tree) (key : String) (branches : List Branch) :
    NoCircle (t.checkBranches key branches) := by
  rw [checkBranches]
  split
  · exact .ok ()
  · split
    · exact .error rfl
    · exact .ok ()

theorem noCircle_checkTerminal (t : Tree) (key target : String) :
    NoCircle (t.checkTerminal key target) :=
  (NoCircle.require rfl).bind fun _ => .require rfl

/-- A node on its own is at fault for other reasons than a circle. -/
theorem noCircle_checkNode (t : Tree) (n : Node) : NoCircle (t.checkNode n) := by
  rw [checkNode]
  split
  · exact (noCircle_checkCondition n.key _).bind fun _ => noCircle_checkBranches t n.key _
  · exact (noCircle_requireField n.key _).bind fun _ => (NoCircle.require rfl).bind fun _ =>
      noCircle_checkBranches t n.key _
  · exact noCircle_checkTerminal t n.key _
  · exact noCircle_checkTerminal t n.key _
  · exact .require rfl

/-! ### Lists with links to follow -/

/-- Keys are unique, every parent is in the list, and one root stands out. -/
structure Linked (nodes : List Node) : Prop where
  keys : (nodes.map Node.key).Nodup
  parents : ∀ n ∈ nodes, ∀ key ∈ n.parent, ∃ p ∈ nodes, p.key = key
  /-- One node is flagged, or none is and one has no parent. -/
  root : nodes.countP Node.isRoot = 1 ∨
    nodes.countP Node.isRoot = 0 ∧ nodes.countP (·.parent.isNone) = 1

theorem onlyRoot_of_length {candidates : List Node} (h : candidates.length = 1) :
    ∃ root ∈ candidates, onlyRoot candidates = .ok root := by
  obtain ⟨root, rfl⟩ := List.length_eq_one_iff.1 h
  exact ⟨root, List.mem_singleton_self root, rfl⟩

namespace Linked
variable {nodes : List Node} (L : Linked nodes)
include L

theorem findRoot_ok : ∃ root ∈ nodes, findRoot nodes = .ok root := by
  have hroot := L.root
  simp only [List.countP_eq_length_filter] at hroot
  unfold findRoot
  rcases hroot with hone | ⟨hnone, hone⟩
  · obtain ⟨root, hmem, h⟩ := onlyRoot_of_length hone
    refine ⟨root, List.mem_of_mem_filter hmem, ?_⟩
    split
    · rename_i hnil
      rw [hnil] at hmem
      exact absurd hmem List.not_mem_nil
    · exact h
  · obtain ⟨root, hmem, h⟩ := onlyRoot_of_length hone
    refine ⟨root, List.mem_of_mem_filter hmem, ?_⟩
    rw [List.length_eq_zero_iff.1 hnone]
    exact h

/-- What stands before the search for circles succeeds. -/
theorem build_eq (defaultStrategy : Option String) : ∃ t : Tree,
    build nodes defaultStrategy = (do
      let _ ← (markAll nodes).mapError .cycle
      nodes.forM t.checkNode
      return t) := by
  obtain ⟨root, hmem, hroot⟩ := L.findRoot_ok
  have hparents : requireParents nodes = .ok () := by
    refine requireParents_of_known fun n hn key hkey => ?_
    obtain ⟨p, hp, rfl⟩ := L.parents n hn key hkey
    rw [nodeOf?_of_mem L.keys hp]
    rfl
  refine ⟨⟨nodes, root, defaultStrategy.filter (!Text.isBlankText ·)⟩, ?_⟩
  rw [build, requireNodes_of_mem hmem, requireKeys_of_nodup L.keys, hparents, hroot]
  rfl

/-- Building fails for a circle where the search does. -/
theorem build_cycle_iff {defaultStrategy : Option String} {key : String} :
    build nodes defaultStrategy = .error (.cycle key) ↔ markAll nodes = .error key := by
  obtain ⟨t, hbuild⟩ := L.build_eq defaultStrategy
  rw [hbuild]
  cases markAll nodes with
  | error key' =>
    show Except.error (PolicyError.cycle key') = .error (.cycle key) ↔
      Except.error key' = .error key
    simp
  | ok marked =>
    have hchecks : NoCircle (do nodes.forM t.checkNode; return t) :=
      (NoCircle.forM (noCircle_checkNode t)).bind fun _ => .ok t
    refine iff_of_false (fun h => ?_) (fun h => by cases h)
    exact Bool.noConfusion (hchecks _ h)

end Linked

/-! ### The search -/

/-- What building finds of circles, and how. -/
structure FindsCircles (nodes : List Node) (defaultStrategy : Option String) : Prop where
  found_iff : (∃ key, build nodes defaultStrategy = .error (.cycle key)) ↔
    ∃ n ∈ nodes, TransGen (IsParent nodes) n n
  on_circle : ∀ key, build nodes defaultStrategy = .error (.cycle key) →
    ∃ n ∈ nodes, n.key = key ∧ TransGen (IsParent nodes) n n
  /-- The search ends. It marks no node twice, and every node if it finds no circle. -/
  marks_once : ∃ made, Marks nodes [] nodes made (markAll nodes) ∧ made.Nodup ∧
    ∀ marked, markAll nodes = .ok marked → made.Perm (nodes.map Node.key)
  /-- There is no other way for it to go. -/
  one_way : ∀ made result, Marks nodes [] nodes made result → result = markAll nodes

/-- **Circles are found exactly**: where keys are unique, parents exist and one root stands out,
building fails for a circle if and only if a node is above itself, on the way down from the root or
off it, and it names such a node. The search marks each node once. -/
theorem circles_found {nodes : List Node} (defaultStrategy : Option String) (L : Linked nodes) :
    FindsCircles nodes defaultStrategy where
  found_iff := by
    simp only [L.build_cycle_iff]
    exact markAll_fails_iff L.keys
  on_circle key h := markAll_error L.keys (L.build_cycle_iff.1 h)
  marks_once := by
    obtain ⟨made, hmarks⟩ := marks_markAll nodes
    refine ⟨made, hmarks, hmarks.fresh.1, fun marked hok => ?_⟩
    rw [hok] at hmarks
    exact hmarks.perm L.keys
  one_way made result h := by
    obtain ⟨made', hmarks⟩ := marks_markAll nodes
    exact (h.unique hmarks).2

/-- A tree that asks nothing, and beside it two annotations that are each other's parent, with a
third below them. -/
def detachedCircle : List Node :=
  [ { Node.ofKind "standard" (.strategy "standard_v1" []) with isRoot := true },
    { Node.ofKind "below" (.note none) with parent := some "there" },
    { Node.ofKind "here" (.note none) with parent := some "there" },
    { Node.ofKind "there" (.note none) with parent := some "here" } ]

theorem circles_found_detached : build detachedCircle none = .error (.cycle "there") ∧
    FindsCircles detachedCircle none := by
  have hlinked : Linked detachedCircle := ⟨by decide, by decide, by decide⟩
  exact ⟨rfl, circles_found none hlinked⟩

end Lending.Tree
