import Lending.Proofs.Tree.Walk
import Mathlib

/-! What a route through a built tree comes to.

A route reaches a terminal, falls back on the default strategy, or is dangling: the tree has no
default strategy and a node on the way chose a label that has no child. Every declared label of a
tree without a default strategy has a child, so such a label is the node's null branch or
`Other`. -/
namespace Lending.Tree

/-- A node that is entered and whose chosen label has no child. -/
structure DeadEnd (t : Tree) (ctx : Context) (n : Node) (s : PathStep) : Prop where
  entered : ∃ trail, Trail t ctx trail ∧ n ∈ trail
  decides : n.step? ctx = some s
  missing : t.childFor n.key s.branch = none

/-! ### Declared labels -/

theorem child_of_checkBranches {t : Tree} {key : String} {branches : List Branch}
    (hd : t.defaultStrategy = none) (h : t.checkBranches key branches = .ok ()) :
    ∀ b ∈ branches, (t.childFor key b.label).isSome := by
  intro b hb
  unfold checkBranches at h
  rw [hd, Option.isSome_none, if_neg Bool.false_ne_true] at h
  cases hfind : branches.find? fun b => (t.childFor key b.label).isNone with
  | some b' => simp [hfind] at h
  | none =>
    have hsome := List.find?_eq_none.1 hfind b hb
    rwa [Bool.not_eq_true, Option.isNone_eq_false_iff] at hsome

/-- Without a default strategy every declared label has a child. -/
theorem Sound.declared_child {t : Tree} (S : t.Sound) (hd : t.defaultStrategy = none) {n : Node}
    (hn : n ∈ t.nodes) {label : String} (hl : label ∈ n.branches.map Branch.label) :
    (t.childFor n.key label).isSome := by
  obtain ⟨b, hb, rfl⟩ := List.mem_map.1 hl
  have hcheck := S.checked n hn
  unfold checkNode at hcheck
  unfold Node.branches at hb
  cases hkind : n.kind with
  | condition spec =>
    rw [hkind] at hcheck hb
    exact child_of_checkBranches hd (then_ok_iff.1 hcheck).2 b hb
  | gate field branches nullBranch =>
    rw [hkind] at hcheck hb
    exact child_of_checkBranches hd (then_ok_iff.1 (then_ok_iff.1 hcheck).2).2 b hb
  | strategy id params => simp [hkind] at hb
  | assessment id => simp [hkind] at hb
  | note text => simp [hkind] at hb

/-! ### Routes by the end of the walk -/

theorem route_of_arrived {t : Tree} {ctx : Context} {n : Node}
    (h : (t.walk ctx).ending = .arrived n) : t.route ctx = .ok (.arrived (t.walk ctx).path n) := by
  simp [route, h]

theorem route_of_default {t : Tree} {ctx : Context} {n : Node} {label strategy : String}
    (h : (t.walk ctx).ending = .dangling n label) (hd : t.defaultStrategy = some strategy) :
    t.route ctx = .ok (.byDefault (t.walk ctx).path strategy) := by
  simp [route, h, hd]

theorem route_of_dangling {t : Tree} {ctx : Context} {n : Node} {label : String}
    (h : (t.walk ctx).ending = .dangling n label) (hd : t.defaultStrategy = none) :
    t.route ctx = .error (.danglingBranch n.key label) := by
  simp [route, h, hd]

namespace Sound
variable {t : Tree} (S : t.Sound)
include S

/-- The last node of the walk is a terminal or a dead end. -/
theorem walk_ends (ctx : Context) : ∃ rest n, Walks t ctx (t.root :: rest) (t.walk ctx) ∧
    (t.root :: rest).getLast? = some n ∧ Walks.Ends t ctx n (t.walk ctx).ending := by
  obtain ⟨rest, hwalks⟩ := S.walk_walks ctx
  obtain ⟨n, hlast, hends⟩ := hwalks.ends
  exact ⟨rest, n, hwalks, hlast, hends⟩

/-- Where the walk stops short of a terminal is the only dead end. -/
theorem dangling_iff_deadEnd (ctx : Context) (n : Node) (label : String) :
    (t.walk ctx).ending = .dangling n label ↔ ∃ s, DeadEnd t ctx n s ∧ s.branch = label := by
  obtain ⟨rest, m, hwalks, hlast, hends⟩ := S.walk_ends ctx
  constructor
  · intro h
    rw [h] at hends
    cases hends with
    | dangling s decides missing =>
      have hentered : n ∈ t.root :: rest := List.mem_of_getLast? hlast
      exact ⟨s, ⟨⟨_, ⟨rfl, hwalks.linked⟩, hentered⟩, decides, missing⟩, rfl⟩
  · rintro ⟨s, ⟨⟨trail, htrail, hn⟩, decides, missing⟩, rfl⟩
    obtain ⟨start, rfl⟩ := htrail.eq_cons
    have hentered := (hwalks.trail_prefix htrail.linked).subset hn
    exact hwalks.dangling_of_mem hentered decides missing

/-- The error of a dangling route names the dead end. -/
theorem route_dangling_iff (ctx : Context) (key label : String) :
    t.route ctx = .error (.danglingBranch key label) ↔
      t.defaultStrategy = none ∧ ∃ n s, DeadEnd t ctx n s ∧ n.key = key ∧ s.branch = label := by
  constructor
  · intro h
    obtain ⟨rest, m, hwalks, hlast, hends⟩ := S.walk_ends ctx
    generalize he : (t.walk ctx).ending = e at hends
    cases hends with
    | arrived ends =>
      rw [route_of_arrived he] at h
      cases h
    | dangling s decides missing =>
      cases hd : t.defaultStrategy with
      | some strategy =>
        rw [route_of_default he hd] at h
        cases h
      | none =>
        rw [route_of_dangling he hd] at h
        obtain ⟨s', hdead, hbranch⟩ := (S.dangling_iff_deadEnd ctx m s.branch).1 he
        cases h
        exact ⟨rfl, m, s', hdead, rfl, hbranch⟩
  · rintro ⟨hd, n, s, hdead, rfl, rfl⟩
    exact route_of_dangling ((S.dangling_iff_deadEnd ctx n s.branch).2 ⟨s, hdead, rfl⟩) hd

theorem route_ok_or_dangling (ctx : Context) : (∃ r, t.route ctx = .ok r) ∨
    ∃ key label, t.route ctx = .error (.danglingBranch key label) := by
  obtain ⟨rest, n, _, _, hends⟩ := S.walk_ends ctx
  generalize he : (t.walk ctx).ending = e at hends
  cases hends with
  | arrived ends => exact .inl ⟨_, route_of_arrived he⟩
  | dangling s decides missing =>
    cases hd : t.defaultStrategy with
    | some strategy => exact .inl ⟨_, route_of_default he hd⟩
    | none => exact .inr ⟨_, _, route_of_dangling he hd⟩

/-- A dead end of a tree without a default strategy chose a label that need not be declared. -/
theorem deadEnd_label (hd : t.defaultStrategy = none) {ctx : Context} {n : Node} {s : PathStep}
    (h : DeadEnd t ctx n s) : s.branch ∉ n.branches.map Branch.label ∧
      (n.nullBranch? = some s.branch ∨ s.branch = otherLabel) := by
  obtain ⟨⟨trail, htrail, hmem⟩, decides, missing⟩ := h
  obtain ⟨rest, rfl⟩ := htrail.eq_cons
  have hn := (S.chain_of_leads S.root_mem htrail.linked).1 n hmem
  have hundeclared : s.branch ∉ n.branches.map Branch.label := by
    intro hdeclared
    have hchild := S.declared_child hd hn hdeclared
    rw [missing] at hchild
    cases hchild
  refine ⟨hundeclared, ?_⟩
  rcases Node.step?_offered decides with hdeclared | hspare
  · exact absurd hdeclared hundeclared
  · exact hspare

end Sound

/-- What the checks of a tree leave to routing. -/
structure ChecksSuffice (t : Tree) (ctx : Context) : Prop where
  settles : (∃ r, t.route ctx = .ok r) ∨
    ∃ key label, t.route ctx = .error (.danglingBranch key label)
  /-- The check for nodes that were entered before never fires. -/
  no_circle : ∀ n, (t.walk ctx).ending ≠ .circling n
  /-- Nor is it needed: without it a node is entered once, and a run of turns is no longer than
  the list of nodes. -/
  entered_once : ∀ trail, Trail t ctx trail →
    (trail.map Node.key).Nodup ∧ trail.length ≤ t.nodes.length
  dangling_iff : ∀ key label, t.route ctx = .error (.danglingBranch key label) ↔
    t.defaultStrategy = none ∧ ∃ n s, DeadEnd t ctx n s ∧ n.key = key ∧ s.branch = label
  undeclared : t.defaultStrategy = none → ∀ n s, DeadEnd t ctx n s →
    s.branch ∉ n.branches.map Branch.label ∧
      (n.nullBranch? = some s.branch ∨ s.branch = otherLabel)

/-- **The checks of a built tree suffice.** Its routes succeed or are dangling, and a route is
dangling exactly where the tree has no default strategy and the walk meets a dead end, whose label
is then none of the declared ones. -/
theorem checks_suffice {nodes : List Node} {defaultStrategy : Option String} {t : Tree}
    (h : build nodes defaultStrategy = .ok t) (ctx : Context) : ChecksSuffice t ctx := by
  have S := build_sound h
  refine
    { settles := S.route_ok_or_dangling ctx
      no_circle := fun n hn => ?_
      entered_once := fun trail => S.trail_nodup
      dangling_iff := S.route_dangling_iff ctx
      undeclared := fun hd n s => S.deadEnd_label hd }
  obtain ⟨_, m, _, _, hends⟩ := S.walk_ends ctx
  rw [hn] at hends
  cases hends

/-- A new customer without a score: the gate chooses `Other`, which it does not declare. -/
theorem checks_suffice_unscored :
    build lendingNodes none = .ok lendingTree ∧
      lendingTree.route .empty = .error (.danglingBranch "gate" "Other") ∧
      ChecksSuffice lendingTree .empty :=
  ⟨build_lendingNodes, by cbv, checks_suffice build_lendingNodes .empty⟩

end Lending.Tree
