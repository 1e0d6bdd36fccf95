import Lending.Proofs.Tree.Marking

/-! What building a tree establishes.

A built tree is *sound*: its keys are unique, its parents exist, its root stands out, every chain
of parent links ends, and each of its nodes passed its own check. Everything that is proved of a
built tree is proved of a sound one, from these facts alone. -/
namespace Lending.Tree
open Relation (TransGen)

/-- A tree as building leaves it. -/
structure Sound (t : Tree) : Prop where
  keys : (t.nodes.map Node.key).Nodup
  parents : ∀ n ∈ t.nodes, ∀ key, n.parent = some key → (nodeOf? t.nodes key).isSome
  root : findRoot t.nodes = .ok t.root
  /-- Every chain of parent links ends. -/
  grounded : ∀ n ∈ t.nodes, Acc (IsParent t.nodes) n
  checked : ∀ n ∈ t.nodes, t.checkNode n = .ok ()

/-! ### Building -/

theorem requireNodes_of_mem {nodes : List Node} {n : Node} (h : n ∈ nodes) :
    require (!nodes.isEmpty) .emptyTree = .ok () := by
  simp [require_ok_iff, List.ne_nil_of_mem h]

theorem requireKeys_ok {nodes : List Node} (h : requireKeys nodes = .ok ()) :
    (nodes.map Node.key).Nodup := by
  unfold requireKeys at h
  cases hrepeat : Text.firstRepeat? [] (nodes.map Node.key) with
  | some key => simp [hrepeat] at h
  | none => exact ((Text.firstRepeat?_eq_none_iff _ _).1 hrepeat).1

theorem requireKeys_of_nodup {nodes : List Node} (h : (nodes.map Node.key).Nodup) :
    requireKeys nodes = .ok () := by
  have hnone : Text.firstRepeat? [] (nodes.map Node.key) = none :=
    (Text.firstRepeat?_eq_none_iff _ _).2 ⟨h, fun _ _ => List.not_mem_nil⟩
  rw [requireKeys, hnone]

theorem requireParents_ok {nodes : List Node} (h : requireParents nodes = .ok ()) :
    ∀ n ∈ nodes, ∀ key, n.parent = some key → (nodeOf? nodes key).isSome := by
  unfold requireParents at h
  cases horphan : orphan? nodes with
  | some e => simp [horphan] at h
  | none =>
    intro n hn key hkey
    have hnone := List.findSome?_eq_none_iff.1 horphan n hn
    simp only [hkey] at hnone
    by_contra hunknown
    simp [hunknown] at hnone

theorem requireParents_of_known {nodes : List Node}
    (h : ∀ n ∈ nodes, ∀ key, n.parent = some key → (nodeOf? nodes key).isSome) :
    requireParents nodes = .ok () := by
  have hnone : orphan? nodes = none := by
    refine List.findSome?_eq_none_iff.2 fun n hn => ?_
    cases hparent : n.parent with
    | none => rfl
    | some key => exact if_pos (h n hn key hparent)
  rw [requireParents, hnone]

theorem mem_of_findRoot {nodes : List Node} {root : Node} (h : findRoot nodes = .ok root) :
    root ∈ nodes := by
  have honly : ∀ candidates : List Node, onlyRoot candidates = .ok root → root ∈ candidates := by
    intro candidates hc
    match candidates with
    | [] => cases hc
    | [n] =>
      cases hc
      exact List.mem_singleton_self _
    | _ :: _ :: _ => cases hc
  unfold findRoot at h
  split at h
  · exact (List.mem_filter.1 (honly _ h)).1
  · exact (List.mem_filter.1 (honly _ h)).1

/-- What building checks, and the tree that it makes. -/
theorem build_ok {nodes : List Node} {defaultStrategy : Option String} {t : Tree}
    (h : build nodes defaultStrategy = .ok t) :
    requireKeys nodes = .ok () ∧ requireParents nodes = .ok () ∧ findRoot nodes = .ok t.root ∧
      (∃ marked, markAll nodes = .ok marked) ∧ (∀ n ∈ nodes, t.checkNode n = .ok ()) ∧
      t.nodes = nodes ∧ t.defaultStrategy = defaultStrategy.filter (!Text.isBlankText ·) := by
  rw [build, then_ok_iff, then_ok_iff, then_ok_iff, bind_ok_iff] at h
  obtain ⟨_, hkeys, hparents, root, hroot, h⟩ := h
  rw [bind_ok_iff] at h
  obtain ⟨marked, hmarked, h⟩ := h
  rw [then_ok_iff, forM_ok_iff] at h
  obtain ⟨hchecked, ht⟩ := h
  cases ht
  exact ⟨hkeys, hparents, hroot, ⟨marked, (mapError_ok_iff _).1 hmarked⟩, hchecked, rfl, rfl⟩

/-- **A built tree is sound.** -/
theorem build_sound {nodes : List Node} {defaultStrategy : Option String} {t : Tree}
    (h : build nodes defaultStrategy = .ok t) : t.Sound := by
  obtain ⟨hkeys, hparents, hroot, ⟨marked, hmarked⟩, hchecked, rfl, _⟩ := build_ok h
  have hnodup := requireKeys_ok hkeys
  exact ⟨hnodup, requireParents_ok hparents, hroot, markAll_grounded hnodup hmarked, hchecked⟩

/-- Building checks no more than that: the nodes of a sound tree build it. -/
theorem Sound.build_nodes {t : Tree} (S : t.Sound) {defaultStrategy : Option String}
    (hd : t.defaultStrategy = defaultStrategy.filter (!Text.isBlankText ·)) :
    build t.nodes defaultStrategy = .ok t := by
  have hnonempty := requireNodes_of_mem (mem_of_findRoot S.root)
  obtain ⟨marked, hmarked⟩ := markAll_ok S.keys S.grounded
  rw [build, then_ok_iff, then_ok_iff, then_ok_iff, bind_ok_iff]
  refine ⟨hnonempty, requireKeys_of_nodup S.keys, requireParents_of_known S.parents, t.root, S.root, ?_⟩
  rw [bind_ok_iff]
  refine ⟨marked, (mapError_ok_iff _).2 hmarked, ?_⟩
  rw [← hd, then_ok_iff, forM_ok_iff]
  exact ⟨S.checked, rfl⟩

/-! ### Each node on its own -/

/-- What a condition's own check asks of it. -/
structure Shaped (spec : ConditionSpec) : Prop where
  /-- A compound condition names attributes in its clauses, any other one of its own. -/
  field : spec.type ≠ .compound → ∃ name, spec.field = some name
  /-- What is decided by a truth value has a branch for either. -/
  twoWay : spec.type = .binary ∨ spec.type = .compound → ∃ yes no, spec.branches = [yes, no]
  branches : spec.branches ≠ []

theorem exists_field_of_requireOwnField {key : String} {spec : ConditionSpec}
    (h : requireOwnField key spec = .ok ()) : ∃ name, spec.field = some name := by
  unfold requireOwnField at h
  split at h
  · cases h
  · exact ⟨_, ‹_›⟩

theorem exists_pair_of_length {branches : List Branch} (h : (branches.length == 2) = true) :
    ∃ yes no, branches = [yes, no] :=
  List.length_eq_two.1 (beq_iff_eq.1 h)

theorem shaped_of_checkCondition {key : String} {spec : ConditionSpec}
    (h : checkCondition key spec = .ok ()) : Shaped spec := by
  unfold checkCondition at h
  split at h
  case h_1 htype =>
    rw [then_ok_iff, then_ok_iff, then_ok_iff, require_ok_iff, require_ok_iff] at h
    obtain ⟨hfield, _, htwo, _⟩ := h
    obtain ⟨yes, no, hpair⟩ := exists_pair_of_length htwo
    exact ⟨fun _ => exists_field_of_requireOwnField hfield, fun _ => ⟨yes, no, hpair⟩,
      by simp [hpair]⟩
  case h_2 htype =>
    rw [then_ok_iff, then_ok_iff, require_ok_iff, require_ok_iff] at h
    obtain ⟨_, _, htwo⟩ := h
    obtain ⟨yes, no, hpair⟩ := exists_pair_of_length htwo
    exact ⟨fun hother => absurd htype hother, fun _ => ⟨yes, no, hpair⟩, by simp [hpair]⟩
  case h_3 hbinary hcompound =>
    rw [then_ok_iff, require_ok_iff] at h
    obtain ⟨hfield, hsome⟩ := h
    refine ⟨fun _ => exists_field_of_requireOwnField hfield, fun htwo => ?_, by simpa using hsome⟩
    exact (htwo.elim hbinary hcompound).elim

/-! ### Links of a sound tree -/

theorem mem_children_iff {t : Tree} {key : String} {n : Node} :
    n ∈ t.children key ↔ n ∈ t.nodes ∧ n.parent = some key := by
  simp [children, childrenOf]

theorem mem_children_of_isParent {t : Tree} {p n : Node} (hn : n ∈ t.nodes)
    (h : IsParent t.nodes p n) : n ∈ t.children p.key := by
  obtain ⟨key, hparent, hfind⟩ := Option.bind_eq_some_iff.1 h
  rw [← (mem_of_nodeOf? hfind).2] at hparent
  exact mem_children_iff.2 ⟨hn, hparent⟩

theorem mem_children_of_childFor {t : Tree} {key label : String} {n : Node}
    (h : t.childFor key label = some n) : n ∈ t.children key := by
  rw [childFor, Option.orElse_eq_orElse, Option.orElse_eq_or, Option.or_eq_some_iff] at h
  rcases h with hexact | ⟨_, hcaseless⟩
  · exact List.mem_of_find?_eq_some hexact
  · exact List.mem_of_find?_eq_some hcaseless

namespace Sound
variable {t : Tree} (S : t.Sound)
include S

theorem root_mem : t.root ∈ t.nodes :=
  mem_of_findRoot S.root

/-- A node is the parent of the nodes that name it as theirs. -/
theorem isParent_of_parent {p n : Node} (hp : p ∈ t.nodes) (h : n.parent = some p.key) :
    IsParent t.nodes p n := by
  rw [IsParent, parentOf?, h]
  exact nodeOf?_of_mem S.keys hp

theorem isParent_of_mem_children {n c : Node} (hn : n ∈ t.nodes) (hc : c ∈ t.children n.key) :
    IsParent t.nodes n c :=
  S.isParent_of_parent hn (mem_children_iff.1 hc).2

theorem shaped {n : Node} {spec : ConditionSpec} (hn : n ∈ t.nodes)
    (hkind : n.kind = .condition spec) : Shaped spec := by
  have hchecked := S.checked n hn
  rw [checkNode, hkind] at hchecked
  exact shaped_of_checkCondition (then_ok_iff.1 hchecked).1

/-- No node is above itself. -/
theorem not_above_self {n : Node} (hn : n ∈ t.nodes) : ¬ TransGen (IsParent t.nodes) n n :=
  not_above_self_of_acc (S.grounded n hn)

end Sound

/-! ### A small tree

Existing customers pass a note on their way to a strategy of their own, new ones are told apart
by a score. -/

def lendingNodes : List Node :=
  [ { Node.ofKind "customer" (.condition
        { ConditionSpec.binary "is_existing_customer" .eq (.flag true) "Existing" "New" with
          nullBranch := some "New" }) with
      isRoot := true },
    { Node.ofKind "note" (.note (some "repeat borrowers")) with
      parent := some "customer", label := some "Existing" },
    { Node.ofKind "repeat" (.strategy "repeat_v2" []) with
      parent := some "note", label := some "next" },
    { Node.ofKind "gate" (.gate "application_score"
        [{ Branch.ofLabel "Low" with max := some 550 },
          { Branch.ofLabel "High" with min := some 550 }]
        none) with
      parent := some "customer", label := some "New" },
    { Node.ofKind "manual" (.assessment "manual_review") with
      parent := some "gate", label := some "Low" },
    { Node.ofKind "standard" (.strategy "standard_v1" []) with
      parent := some "gate", label := some "High" } ]

def lendingTree : Tree where
  nodes := lendingNodes
  root := lendingNodes.head (List.cons_ne_nil _ _)
  defaultStrategy := none

theorem build_lendingNodes : build lendingNodes none = .ok lendingTree := rfl

end Lending.Tree
