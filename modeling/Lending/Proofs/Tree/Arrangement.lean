import Lending.Proofs.Tree.Walk

/-! The order in which a policy lists the nodes of a tree.

A node is known by its key, so the order of the list shows in one place only: where two children
of a node carry labels that differ in nothing but case and outer blanks, the first of them is
taken. Where no two do, a list in another order builds a tree with the same links, the same walks
and the same routes. -/
namespace Lending.Tree

/-! ### Lists in another order -/

/-- What at most one member satisfies is found in any order. -/
theorem find?_perm {α : Type} {p : α → Bool} {l l' : List α} (hperm : l'.Perm l)
    (hone : ∀ a ∈ l, ∀ b ∈ l, p a = true → p b = true → a = b) : l'.find? p = l.find? p := by
  cases hfind : l.find? p with
  | none =>
    rw [List.find?_eq_none] at hfind ⊢
    exact fun a ha => hfind a (hperm.subset ha)
  | some a =>
    have ha := List.mem_of_find?_eq_some hfind
    have hpa := List.find?_some hfind
    cases hfind' : l'.find? p with
    | none => exact absurd hpa (List.find?_eq_none.1 hfind' a (hperm.symm.subset ha))
    | some b =>
      have hb := hperm.subset (List.mem_of_find?_eq_some hfind')
      rw [hone a ha b hb hpa (List.find?_some hfind')]

theorem nodeOf?_perm {nodes nodes' : List Node} (hk : (nodes.map Node.key).Nodup)
    (hperm : nodes'.Perm nodes) (key : String) : nodeOf? nodes' key = nodeOf? nodes key := by
  refine find?_perm hperm fun m hm n hn hmkey hnkey => eq_of_key hk hm hn ?_
  exact (beq_iff_eq.1 hmkey).trans (beq_iff_eq.1 hnkey).symm

/-- The links upward are the same in any order. -/
theorem isParent_perm {nodes nodes' : List Node} (hk : (nodes.map Node.key).Nodup)
    (hperm : nodes'.Perm nodes) : IsParent nodes' = IsParent nodes := by
  have hnode : nodeOf? nodes' = nodeOf? nodes := funext (nodeOf?_perm hk hperm)
  funext p n
  rw [IsParent, IsParent, parentOf?, parentOf?, hnode]

/-- The only candidate is the only one in any order. -/
theorem onlyRoot_perm {candidates candidates' : List Node} {root : Node}
    (hperm : candidates'.Perm candidates) (h : onlyRoot candidates = .ok root) :
    onlyRoot candidates' = .ok root := by
  match candidates with
  | [] => cases h
  | [n] =>
    cases h
    rw [List.perm_singleton.1 hperm]
    rfl
  | _ :: _ :: _ => cases h

theorem findRoot_perm {nodes nodes' : List Node} {root : Node} (hperm : nodes'.Perm nodes)
    (h : findRoot nodes = .ok root) : findRoot nodes' = .ok root := by
  have hflagged := hperm.filter Node.isRoot
  have hparentless := hperm.filter (·.parent.isNone)
  unfold findRoot at h ⊢
  cases hroots : nodes.filter Node.isRoot with
  | nil =>
    rw [hroots] at h hflagged
    rw [List.perm_nil.1 hflagged]
    exact onlyRoot_perm hparentless h
  | cons n rest =>
    rw [hroots] at h hflagged
    cases hroots' : nodes'.filter Node.isRoot with
    | nil => exact absurd (hroots' ▸ hflagged).symm.eq_nil (List.cons_ne_nil n rest)
    | cons n' rest' => exact onlyRoot_perm (hroots' ▸ hflagged) h

/-! ### Labels -/

/-- No two children of a node carry labels that differ in nothing but case and outer blanks. -/
def LabelsApart (nodes : List Node) : Prop :=
  ∀ m ∈ nodes, ∀ n ∈ nodes, m.key ≠ n.key → m.parent.isSome → m.parent = n.parent →
    ∀ l ∈ m.label, ∀ l' ∈ n.label, Text.keyword l ≠ Text.keyword l'

instance (nodes : List Node) : Decidable (LabelsApart nodes) :=
  inferInstanceAs (Decidable (∀ m ∈ nodes, ∀ n ∈ nodes, m.key ≠ n.key → m.parent.isSome →
    m.parent = n.parent → ∀ l ∈ m.label, ∀ l' ∈ n.label, Text.keyword l ≠ Text.keyword l'))

/-- Under a keyword a node has one child. -/
theorem LabelsApart.eq_of_keyword {t : Tree} (hapart : LabelsApart t.nodes)
    (hk : (t.nodes.map Node.key).Nodup) {key l l' : String} {m n : Node}
    (hm : m ∈ t.children key) (hn : n ∈ t.children key) (hl : m.label = some l)
    (hl' : n.label = some l') (h : Text.keyword l = Text.keyword l') : m = n := by
  obtain ⟨hm, hmparent⟩ := mem_children_iff.1 hm
  obtain ⟨hn, hnparent⟩ := mem_children_iff.1 hn
  by_contra hne
  have hkeys : m.key ≠ n.key := fun hkey => hne (eq_of_key hk hm hn hkey)
  have hparents : m.parent = n.parent := hmparent.trans hnparent.symm
  exact hapart m hm n hn hkeys (by rw [hmparent]; rfl) hparents l hl l' hl' h

/-! ### Trees with the same links -/

/-- Two trees with the same root and default strategy whose links downward are the same, but for
the order in which children are listed. -/
structure SameLinks (t t' : Tree) : Prop where
  root : t'.root = t.root
  defaultStrategy : t'.defaultStrategy = t.defaultStrategy
  children : ∀ key, (t'.children key).Perm (t.children key)
  childFor : ∀ key label, t'.childFor key label = t.childFor key label

namespace SameLinks
variable {t t' : Tree} (L : SameLinks t t')
include L

/-- A node is as sound in one tree as in the other. -/
theorem checkNode_eq (n : Node) : t'.checkNode n = t.checkNode n := by
  have hbranches (branches : List Branch) :
      t'.checkBranches n.key branches = t.checkBranches n.key branches := by
    simp only [checkBranches, L.defaultStrategy, L.childFor]
  have hterminal (target : String) :
      t'.checkTerminal n.key target = t.checkTerminal n.key target := by
    simp only [checkTerminal, (L.children n.key).isEmpty_eq]
  unfold checkNode
  cases n.kind with
  | condition spec => simp only [hbranches]
  | gate field branches nullBranch => simp only [hbranches]
  | strategy id params => exact hterminal id
  | assessment id => exact hterminal id
  | note text => simp only [(L.children n.key).length_eq]

/-- A walk through one tree is a walk through the other. -/
theorem walks {ctx : Context} {entered : List Node} {w : Walk} (h : Walks t ctx entered w) :
    Walks t' ctx entered w := by
  induction h with
  | arrived passes ends => exact .arrived passes ends
  | dangling decides missing => exact .dangling decides (by rw [L.childFor, missing])
  | branch decides taken _ ih => exact .branch decides (by rw [L.childFor, taken]) ih
  | @note n c _ _ passes goesOn only _ ih =>
    have hchildren := L.children n.key
    rw [only] at hchildren
    exact .note passes goesOn (List.perm_singleton.1 hchildren) ih

theorem route_eq (S : t.Sound) (S' : t'.Sound) (ctx : Context) : t'.route ctx = t.route ctx := by
  obtain ⟨rest, hwalks⟩ := S.walk_walks ctx
  obtain ⟨rest', hwalks'⟩ := S'.walk_walks ctx
  rw [L.root] at hwalks'
  have hsame : t'.walk ctx = t.walk ctx := hwalks'.unique (L.walks hwalks)
  rw [route, route, hsame, L.defaultStrategy]

end SameLinks

/-! ### The same nodes in another order -/

theorem sameLinks_perm {t : Tree} (S : t.Sound) (hapart : LabelsApart t.nodes)
    {nodes : List Node} (hperm : nodes.Perm t.nodes) : SameLinks t { t with nodes := nodes } := by
  have hchildren (key : String) :
      (children { t with nodes := nodes } key).Perm (t.children key) := hperm.filter _
  refine ⟨rfl, rfl, hchildren, fun key label => ?_⟩
  have hexact := find?_perm (p := fun n => n.label == some label) (hchildren key)
    fun m hm n hn hmlabel hnlabel =>
      hapart.eq_of_keyword S.keys hm hn (beq_iff_eq.1 hmlabel) (beq_iff_eq.1 hnlabel) rfl
  have hcaseless := find?_perm
    (p := fun n => n.label.any fun l => Text.keyword l == Text.keyword label) (hchildren key)
    fun m hm n hn hmlabel hnlabel => by
      obtain ⟨l, hl, hkeyword⟩ := (Option.any_eq_true _ _).1 hmlabel
      obtain ⟨l', hl', hkeyword'⟩ := (Option.any_eq_true _ _).1 hnlabel
      exact hapart.eq_of_keyword S.keys hm hn hl hl'
        ((beq_iff_eq.1 hkeyword).trans (beq_iff_eq.1 hkeyword').symm)
  rw [childFor, childFor, hexact, hcaseless]

/-- In another order the nodes of a sound tree make a sound tree. -/
theorem Sound.perm {t : Tree} (S : t.Sound) (hapart : LabelsApart t.nodes) {nodes : List Node}
    (hperm : nodes.Perm t.nodes) : Sound { t with nodes := nodes } where
  keys := (hperm.map Node.key).nodup_iff.2 S.keys
  parents n hn key hkey := by
    rw [nodeOf?_perm S.keys hperm]
    exact S.parents n (hperm.subset hn) key hkey
  root := findRoot_perm hperm S.root
  grounded n hn := by
    rw [isParent_perm S.keys hperm]
    exact S.grounded n (hperm.subset hn)
  checked n hn := by
    rw [(sameLinks_perm S hapart hperm).checkNode_eq]
    exact S.checked n (hperm.subset hn)

/-- **The order of the nodes does not matter** where no two children of a node carry the same
label up to case and outer blanks: in any other order they build a tree too, and it routes every
context to the same end by the same path, or fails with the same error. -/
theorem order_indifferent {nodes nodes' : List Node} {defaultStrategy : Option String} {t : Tree}
    (h : build nodes defaultStrategy = .ok t) (hapart : LabelsApart nodes)
    (hperm : nodes'.Perm nodes) :
    ∃ t', build nodes' defaultStrategy = .ok t' ∧ ∀ ctx, t'.route ctx = t.route ctx := by
  have S := build_sound h
  obtain ⟨_, _, _, _, _, rfl, hd⟩ := build_ok h
  have S' := S.perm hapart hperm
  exact ⟨{ t with nodes := nodes' }, S'.build_nodes hd,
    (sameLinks_perm S hapart hperm).route_eq S S'⟩

/-- Leaves first and the root last. -/
theorem order_indifferent_reverse : build lendingNodes none = .ok lendingTree ∧
    LabelsApart lendingNodes ∧ lendingNodes.reverse.Perm lendingNodes ∧
    ∃ t', build lendingNodes.reverse none = .ok t' ∧
      ∀ ctx, t'.route ctx = lendingTree.route ctx := by
  have hapart : LabelsApart lendingNodes := by decide +kernel
  have hperm : lendingNodes.reverse.Perm lendingNodes := List.reverse_perm _
  exact ⟨build_lendingNodes, hapart, hperm, order_indifferent build_lendingNodes hapart hperm⟩

end Lending.Tree
