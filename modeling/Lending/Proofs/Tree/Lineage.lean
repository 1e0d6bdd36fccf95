import Lending.Proofs.Tree.Route

/-! The path of a route as an audit trail.

The parent links of a tree lead from any node up. A *lineage* is the way down to a node, from a
node above it, along these links; in a sound tree there is at most one. `AuditTrail` says of a
route that its path is the lineage from the root to where the route ended, with the annotations
left out, and that the recorded branches are the ones that lead down the lineage. -/
namespace Lending.Tree
open Relation (ReflTransGen TransGen)

/-! ### Lineages -/

/-- The nodes from `top` down to a node, by parent links. -/
inductive Lineage (t : Tree) (top : Node) : Node → List Node → Prop where
  | start (known : top ∈ t.nodes) : Lineage t top top [top]
  | child {p n : Node} {above : List Node} (down : Lineage t top p above) (known : n ∈ t.nodes)
      (parent : n.parent = some p.key) : Lineage t top n (above ++ [n])

namespace Lineage
variable {t : Tree} {top n : Node} {chain : List Node}

theorem mem (h : Lineage t top n chain) : n ∈ t.nodes := by
  cases h with
  | start known => exact known
  | child _ known _ => exact known

theorem top_mem (h : Lineage t top n chain) : top ∈ t.nodes := by
  induction h with
  | start known => exact known
  | child _ _ _ ih => exact ih

/-- A lineage goes on down a chain of children. -/
theorem append (h : Lineage t top n chain) {rest : List Node} {last : Node}
    (hrest : (n :: rest).IsChain fun p c => c ∈ t.children p.key)
    (hlast : (n :: rest).getLast? = some last) : Lineage t top last (chain ++ rest) := by
  induction rest generalizing n chain with
  | nil =>
    cases hlast
    rwa [List.append_nil]
  | cons c rest ih =>
    obtain ⟨hchild, hrest⟩ := List.isChain_cons_cons.1 hrest
    obtain ⟨hc, hparent⟩ := mem_children_iff.1 hchild
    rw [List.getLast?_cons_cons] at hlast
    have hlonger := ih (h.child hc hparent) hrest hlast
    rwa [List.append_assoc] at hlonger

end Lineage

namespace Sound
variable {t : Tree} (S : t.Sound)
include S

theorem below_of_lineage {top n : Node} {chain : List Node} (h : Lineage t top n chain) :
    ReflTransGen (IsParent t.nodes) top n := by
  induction h with
  | start _ => exact .refl
  | child down _ parent ih => exact ih.tail (S.isParent_of_parent down.mem parent)

/-- The parent of a lineage's top is not on the lineage. -/
theorem parent_of_top {top p : Node} {chain : List Node} (h : Lineage t top p chain) :
    top.parent ≠ some p.key := by
  intro hparent
  have hbelow := S.below_of_lineage h
  have hlink := S.isParent_of_parent h.mem hparent
  exact S.not_above_self h.top_mem (TransGen.tail' hbelow hlink)

/-- **One lineage at most leads from a node to another.** -/
theorem lineage_unique {top n : Node} {chain other : List Node} (h : Lineage t top n chain)
    (hother : Lineage t top n other) : other = chain := by
  induction h generalizing other with
  | start _ =>
    cases hother with
    | start _ => rfl
    | child down _ parent => exact absurd parent (S.parent_of_top down)
  | child down _ parent ih =>
    cases hother with
    | start _ => exact absurd parent (S.parent_of_top down)
    | child down' _ parent' =>
      have hkey := Option.some.inj (parent'.symm.trans parent)
      cases eq_of_key S.keys down'.mem down.mem hkey
      rw [ih down']

end Sound

/-! ### What a path records of the nodes entered -/

/-- How a route that was at `n` came to `c`: by the branch that its path records for `n`, or as
the only child of an annotation. -/
def Onward (t : Tree) (path : List PathStep) (n c : Node) : Prop :=
  match n.kind with
  | .condition _ | .gate _ _ _ =>
    ∃ s ∈ path, s.nodeKey = n.key ∧ t.childFor n.key s.branch = some c
  | .note _ => t.children n.key = [c]
  | .strategy _ _ | .assessment _ => False

theorem Onward.mono {t : Tree} {path longer : List PathStep} {n c : Node} (hsub : path ⊆ longer)
    (h : Onward t path n c) : Onward t longer n c := by
  unfold Onward at h ⊢
  cases hkind : n.kind <;> rw [hkind] at h
  case condition | gate =>
    obtain ⟨s, hs, hkey, taken⟩ := h
    exact ⟨s, hsub hs, hkey, taken⟩
  all_goals exact h

theorem onward_of_branch {t : Tree} {ctx : Context} {path : List PathStep} {n c : Node}
    {s : PathStep} (hs : s ∈ path) (decides : n.step? ctx = some s)
    (taken : t.childFor n.key s.branch = some c) : Onward t path n c := by
  have hstep : ∃ s ∈ path, s.nodeKey = n.key ∧ t.childFor n.key s.branch = some c :=
    ⟨s, hs, Node.step?_nodeKey decides, taken⟩
  rcases Node.branching_of_step decides with ⟨spec, hkind, _⟩ | ⟨field, branches, null, hkind, _⟩
  · rw [Onward, hkind]
    exact hstep
  · rw [Onward, hkind]
    exact hstep

theorem onward_of_note {t : Tree} {ctx : Context} {path : List PathStep} {n c : Node}
    (passes : n.step? ctx = none) (goesOn : n.isTerminal = false)
    (only : t.children n.key = [c]) : Onward t path n c := by
  obtain ⟨text, hkind⟩ := Node.note_of_passes passes goesOn
  rw [Onward, hkind]
  exact only

theorem keys_of_steps (ctx : Context) (nodes : List Node) :
    (nodes.filterMap (·.step? ctx)).map PathStep.nodeKey =
      (nodes.filter Node.isBranching).map Node.key := by
  induction nodes with
  | nil => rfl
  | cons n rest ih =>
    have hbranching := n.isSome_step? ctx
    cases hstep : n.step? ctx with
    | none =>
      rw [hstep, Option.isSome_none] at hbranching
      simp only [List.filterMap_cons, List.filter_cons, hstep, ← hbranching, Bool.false_eq_true,
        if_false, ih]
    | some s =>
      rw [hstep, Option.isSome_some] at hbranching
      simp only [List.filterMap_cons, List.filter_cons, hstep, ← hbranching, if_true,
        List.map_cons, ih, Node.step?_nodeKey hstep]

namespace Walks
variable {t : Tree} {ctx : Context} {entered : List Node} {w : Walk}

theorem onward (h : Walks t ctx entered w) : entered.IsChain (Onward t w.path) := by
  induction h with
  | arrived => exact .singleton _
  | dangling => exact .singleton _
  | @branch _ _ s _ w decides taken _ ih =>
    have hrest := ih.imp fun _ _ => Onward.mono (List.subset_cons_self s w.path)
    exact List.isChain_cons_cons.2 ⟨onward_of_branch (List.mem_cons_self ..) decides taken, hrest⟩
  | note passes goesOn only _ ih =>
    exact List.isChain_cons_cons.2 ⟨onward_of_note passes goesOn only, ih⟩

/-- The path names the branching nodes that are entered, in their order. -/
theorem keys_eq (h : Walks t ctx entered w) :
    w.path.map PathStep.nodeKey = (entered.filter Node.isBranching).map Node.key := by
  rw [h.path_eq]
  exact keys_of_steps ctx entered

/-- The last decision of a walk that stops short is the one of its last node. -/
theorem last_key (h : Walks t ctx entered w) {n : Node} {s : PathStep}
    (hlast : entered.getLast? = some n) (decides : n.step? ctx = some s) :
    (w.path.map PathStep.nodeKey).getLast? = some n.key := by
  have hbranching : n.isBranching = true := by
    rw [← n.isSome_step? ctx, decides, Option.isSome_some]
  obtain ⟨front, rfl⟩ := List.getLast?_eq_some_iff.1 hlast
  rw [h.keys_eq, List.filter_append, List.filter_cons_of_pos hbranching, List.filter_nil,
    List.map_append, List.map_singleton, List.getLast?_concat]

end Walks

/-! ### The audit trail -/

/-- What a path is worth: `chain` is the lineage from the root to `last`. -/
structure Recorded (t : Tree) (path : List PathStep) (chain : List Node) (last : Node) : Prop where
  lineage : Lineage t t.root last chain
  /-- No other chain of parent links leads from the root to there. -/
  only : ∀ other, Lineage t t.root last other → other = chain
  /-- The path names the branching nodes of the lineage and no others, each once. -/
  keys : path.map PathStep.nodeKey = (chain.filter Node.isBranching).map Node.key
  once : (path.map PathStep.nodeKey).Nodup
  onward : chain.IsChain (Onward t path)

/-- What a walk records, and where it ends. -/
theorem Sound.walk_recorded {t : Tree} (S : t.Sound) (ctx : Context) : ∃ rest last,
    Walks t ctx (t.root :: rest) (t.walk ctx) ∧ (t.root :: rest).getLast? = some last ∧
      Walks.Ends t ctx last (t.walk ctx).ending ∧
      Recorded t (t.walk ctx).path (t.root :: rest) last := by
  obtain ⟨rest, last, hwalks, hlast, hends⟩ := S.walk_ends ctx
  have hlineage : Lineage t t.root last ([t.root] ++ rest) := by
    have hchildren := hwalks.linked.imp fun _ _ => Leads.mem_children
    exact (Lineage.start S.root_mem).append hchildren hlast
  have honce : ((t.walk ctx).path.map PathStep.nodeKey).Nodup := by
    obtain ⟨hmem, hchain⟩ := S.chain_of_leads S.root_mem hwalks.linked
    rw [hwalks.keys_eq]
    exact (S.nodup_of_chain hmem hchain).sublist (List.filter_sublist.map _)
  refine ⟨rest, last, hwalks, hlast, hends, ?_⟩
  exact ⟨hlineage, fun _ => S.lineage_unique hlineage, hwalks.keys_eq, honce, hwalks.onward⟩

/-- What the path of a route is worth. -/
structure AuditTrail (t : Tree) (r : Routing) (chain : List Node) (last : Node) : Prop where
  recorded : Recorded t r.path chain last
  /-- The lineage leads to the terminal, or to the last node of the path. -/
  ends : match r.terminalNode with
    | some key => last.key = key
    | none => r.nodeKeys.getLast? = some last.key
  usedDefault_iff : r.usedDefault = true ↔ r.terminalNode = none
  byDefault : r.usedDefault = true → ∃ strategy,
    t.defaultStrategy = some strategy ∧ r.strategyId = some strategy ∧ r.params = []
  one_target : r.strategyId.isSome = !r.assessmentId.isSome

theorem auditTrail_of_arrived {t : Tree} {path : List PathStep} {chain : List Node} {n : Node}
    (hrecorded : Recorded t path chain n) (ends : n.isTerminal = true) :
    AuditTrail t (.arrived path n) chain n := by
  refine ⟨hrecorded, rfl, ?_, ?_, ?_⟩
  · simp [Routing.arrived]
  · intro hdefault
    cases hdefault
  · rcases Node.kind_of_terminal ends with ⟨id, params, hkind⟩ | ⟨id, hkind⟩
    · simp [Routing.arrived, Node.strategyRef?, Node.assessmentRef?, hkind]
    · simp [Routing.arrived, Node.strategyRef?, Node.assessmentRef?, hkind]

theorem auditTrail_byDefault {t : Tree} {path : List PathStep} {chain : List Node} {n : Node}
    {strategy : String} (hrecorded : Recorded t path chain n)
    (hlast : (path.map PathStep.nodeKey).getLast? = some n.key)
    (hd : t.defaultStrategy = some strategy) : AuditTrail t (.byDefault path strategy) chain n := by
  refine ⟨hrecorded, hlast, ?_, ?_, rfl⟩
  · simp [Routing.byDefault]
  · exact fun _ => ⟨strategy, hd, rfl, rfl⟩

/-- **The path of a route is its audit trail.** -/
theorem route_audited {nodes : List Node} {defaultStrategy : Option String} {t : Tree}
    (h : build nodes defaultStrategy = .ok t) {ctx : Context} {r : Routing}
    (hr : t.route ctx = .ok r) : ∃ chain last, AuditTrail t r chain last := by
  obtain ⟨rest, last, hwalks, hlast, hends, hrecorded⟩ := (build_sound h).walk_recorded ctx
  refine ⟨t.root :: rest, last, ?_⟩
  generalize he : (t.walk ctx).ending = e at hends
  cases hends with
  | arrived ends =>
    cases (route_of_arrived he).symm.trans hr
    exact auditTrail_of_arrived hrecorded ends
  | dangling s decides missing =>
    cases hd : t.defaultStrategy with
    | none => cases (route_of_dangling he hd).symm.trans hr
    | some strategy =>
      cases (route_of_default he hd).symm.trans hr
      exact auditTrail_byDefault hrecorded (hwalks.last_key hlast decides) hd

def repeatCustomer : Context :=
  Record.empty.put .isExistingCustomer (some true)

def repeatRoute : Routing where
  strategyId := some "repeat_v2"
  assessmentId := none
  params := []
  terminalNode := some "repeat"
  usedDefault := false
  path := [⟨"customer", .binary, some "is_existing_customer", .flag true, "Existing", .matched⟩]

/-- Of the three nodes on the way to `repeat` the path names the one that branches. -/
theorem route_audited_repeat :
    build lendingNodes none = .ok lendingTree ∧
      lendingTree.route repeatCustomer = .ok repeatRoute ∧
      ∃ chain last, AuditTrail lendingTree repeatRoute chain last := by
  have hroute : lendingTree.route repeatCustomer = .ok repeatRoute := by cbv
  exact ⟨build_lendingNodes, hroute, route_audited build_lendingNodes hroute⟩

end Lending.Tree
