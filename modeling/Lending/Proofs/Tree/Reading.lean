import Lending.Proofs.Tree.Lineage

/-! What a route reads of its context.

A branching node names the attributes that it looks at, and its decision is a function of what the
context shows under these names. Two contexts that show the same to the nodes on the path of the
first are therefore routed alike; what they show under any other name does not matter, and neither
does what they show to nodes off the path. -/
namespace Lending

/-- The attributes that a condition names: a compound one those of its clauses, any other its
own. -/
def ConditionSpec.attributes (spec : ConditionSpec) : List String :=
  match spec.type with
  | .compound => spec.clauses.map Clause.field
  | _ => spec.field.toList

/-- The attributes that a branching node names. -/
def Node.attributes (n : Node) : List String :=
  match n.kind with
  | .condition spec => spec.attributes
  | .gate field _ _ => [field]
  | _ => []

variable {ctx ctx' : Context}

/-! ### One node -/

namespace Branching

theorem observed_congr {field : String} (h : ctx.lookup field = ctx'.lookup field) :
    observed ctx field = observed ctx' field := by
  rw [observed, observed, h]

/-- No attribute has an empty name. -/
theorem observed_getD {field : Option String}
    (h : ∀ name ∈ field.toList, ctx.lookup name = ctx'.lookup name) :
    observed ctx (field.getD "") = observed ctx' (field.getD "") := by
  cases field with
  | none => rfl
  | some name => exact observed_congr (h name (List.mem_singleton_self name))

theorem clauseHolds_congr {c : Clause} (h : observed ctx c.field = observed ctx' c.field) :
    clauseHolds ctx c = clauseHolds ctx' c := by
  rw [clauseHolds, clauseHolds, h]

theorem missingClause_congr {spec : ConditionSpec}
    (h : ∀ c ∈ spec.clauses, observed ctx c.field = observed ctx' c.field) :
    missingClause ctx spec = missingClause ctx' spec := by
  have hseen : spec.clauses.map (fun c => observed ctx c.field) =
      spec.clauses.map fun c => observed ctx' c.field := List.map_congr_left h
  have hmissing := congrArg (List.any · Value.isMissing) hseen
  simp only [List.any_map, Function.comp_def] at hmissing
  rw [missingClause, missingClause, hmissing]

theorem clauseFaults_congr {clauses : List Clause}
    (h : ∀ c ∈ clauses, observed ctx c.field = observed ctx' c.field) (logic : Logic) :
    clauseFaults ctx logic clauses = clauseFaults ctx' logic clauses := by
  induction clauses with
  | nil => rfl
  | cons c rest ih =>
    obtain ⟨hc, hrest⟩ := List.forall_mem_cons.1 h
    simp only [clauseFaults, hc, clauseHolds_congr hc, ih hrest]

end Branching

open Branching

/-- The two contexts show the same to a node. -/
def Node.SeesSame (n : Node) (ctx ctx' : Context) : Prop :=
  ∀ name ∈ n.attributes, ctx.lookup name = ctx'.lookup name

theorem gateStep_congr {field : String} (h : observed ctx field = observed ctx' field)
    (key : String) (branches : List Branch) (nullBranch : Option String) :
    gateStep key field branches nullBranch ctx = gateStep key field branches nullBranch ctx' := by
  rw [gateStep, gateStep, h]

namespace ConditionSpec
variable {spec : ConditionSpec}

theorem compoundStep_congr (h : ∀ c ∈ spec.clauses, observed ctx c.field = observed ctx' c.field)
    (key : String) : spec.compoundStep key ctx = spec.compoundStep key ctx' := by
  have hholds : spec.clauses.map (clauseHolds ctx) = spec.clauses.map (clauseHolds ctx') :=
    List.map_congr_left fun c hc => clauseHolds_congr (h c hc)
  rw [compoundStep, compoundStep, missingClause_congr h, hholds]

/-- Every condition but a compound one looks at its own attribute only. -/
theorem step_congr (hcompound : spec.type ≠ .compound)
    (h : observed ctx (spec.field.getD "") = observed ctx' (spec.field.getD "")) (key : String) :
    spec.step key ctx = spec.step key ctx' := by
  unfold step
  split
  · next htype => exact absurd htype hcompound
  · exact gateStep_congr h ..
  · dsimp only
    rw [h]

/-- What two contexts show to a condition that sees the same in both, by the condition's type. -/
theorem observed_of_attributes (h : ∀ name ∈ spec.attributes, ctx.lookup name = ctx'.lookup name) :
    (spec.type = .compound ∧ ∀ c ∈ spec.clauses, observed ctx c.field = observed ctx' c.field) ∨
      (spec.type ≠ .compound ∧
        observed ctx (spec.field.getD "") = observed ctx' (spec.field.getD "")) := by
  unfold attributes at h
  split at h
  · next htype =>
    exact .inl ⟨htype, fun c hc => observed_congr (h c.field (List.mem_map_of_mem hc))⟩
  · next htype => exact .inr ⟨htype, observed_getD h⟩

end ConditionSpec

namespace Node
variable {n : Node}

/-- **A node decides by its attributes alone.** -/
theorem SeesSame.step?_eq (h : n.SeesSame ctx ctx') : n.step? ctx = n.step? ctx' := by
  unfold step?
  cases hkind : n.kind with
  | condition spec =>
    rw [SeesSame, attributes, hkind] at h
    rcases ConditionSpec.observed_of_attributes h with ⟨htype, hclauses⟩ | ⟨htype, hfield⟩
    · simp only [ConditionSpec.step, htype, ConditionSpec.compoundStep_congr hclauses]
    · simp only [ConditionSpec.step_congr htype hfield]
  | gate field branches nullBranch =>
    rw [SeesSame, attributes, hkind] at h
    have hfield := observed_congr (h field (List.mem_singleton_self field))
    simp only [gateStep_congr hfield]
  | strategy id params => rfl
  | assessment id => rfl
  | note text => rfl

/-- Whether a node decides is no matter of the context. -/
theorem passes_of_passes (passes : n.step? ctx = none) (ctx' : Context) : n.step? ctx' = none := by
  rw [← Option.not_isSome_iff_eq_none, isSome_step?, ← n.isSome_step? ctx, passes]
  exact Bool.false_ne_true

theorem SeesSame.warnings_eq (h : n.SeesSame ctx ctx') : n.warnings ctx = n.warnings ctx' := by
  unfold warnings
  cases hkind : n.kind with
  | condition spec =>
    rw [SeesSame, attributes, hkind] at h
    rcases ConditionSpec.observed_of_attributes h with ⟨htype, hclauses⟩ | ⟨htype, hfield⟩
    · simp only [htype, missingClause_congr hclauses, clauseFaults_congr hclauses]
    · simp only [hfield]
      split
      · rfl
      · next hcompound => exact absurd hcompound htype
      · rfl
  | gate field branches nullBranch => rfl
  | strategy id params => rfl
  | assessment id => rfl
  | note text => rfl

end Node

/-! ### A walk -/

namespace Tree

/-- The two contexts show the same to every node that a path names. -/
def SeenSame (t : Tree) (path : List PathStep) (ctx ctx' : Context) : Prop :=
  ∀ n ∈ t.nodes, n.key ∈ path.map PathStep.nodeKey → n.SeesSame ctx ctx'

/-- Walking on with a context that shows the same to the nodes on the way. -/
theorem walkFrom_eq_of_seenSame {t : Tree} (fresh : List String) {n : Node} (hn : n ∈ t.nodes)
    (h : t.SeenSame (t.walkFrom ctx fresh n).path ctx ctx') :
    t.walkFrom ctx' fresh n = t.walkFrom ctx fresh n := by
  -- A node that decides is the first on the path; its decision leads both walks to one child.
  fun_induction walkFrom t ctx fresh n with
  | case1 fresh n entering s decides c taken w ih =>
    have hstep := (h n hn (by simp [Node.step?_nodeKey decides])).step?_eq
    have hc : c ∈ t.nodes := (mem_children_iff.1 (mem_children_of_childFor taken)).1
    have hrest := ih hc fun m hm hkey => h m hm (List.mem_cons_of_mem _ hkey)
    rw [walkFrom, dif_pos entering, ← hstep, decides]
    simp only [taken, hrest, w]
  | case2 fresh n entering s decides missing =>
    have hstep := (h n hn (by simp [Node.step?_nodeKey decides])).step?_eq
    rw [walkFrom, dif_pos entering, ← hstep, decides]
    simp only [missing]
  | case3 fresh n entering passes ends =>
    rw [walkFrom, dif_pos entering, Node.step?_of_terminal ends]
    simp only [ends, if_true]
  | case4 fresh n entering passes goesOn c only ih =>
    have hc : c ∈ t.children n.key := only ▸ List.mem_singleton_self c
    rw [walkFrom, dif_pos entering, Node.passes_of_passes passes ctx']
    simp only [goesOn, only, Bool.false_eq_true, if_false]
    exact ih (mem_children_iff.1 hc).1 h
  | case5 fresh n entering passes goesOn none_only =>
    rw [walkFrom, dif_pos entering, Node.passes_of_passes passes ctx']
    simp only [goesOn, Bool.false_eq_true, if_false]
  | case6 fresh n entered => rw [walkFrom, dif_neg entered]

/-- The nodes on a path warn of the same where they see the same. -/
theorem warnings_eq_of_seenSame {t : Tree} {path : List PathStep} (h : t.SeenSame path ctx ctx')
    {s : PathStep} (hs : s ∈ path) {n : Node} (hn : t.node? s.nodeKey = some n) :
    n.warnings ctx' = n.warnings ctx := by
  obtain ⟨hmem, hkey⟩ := mem_of_nodeOf? hn
  exact (h n hmem (hkey ▸ List.mem_map_of_mem hs)).warnings_eq.symm

/-- **A route reads nothing but what the nodes on its path name.** A context that shows the same
to these nodes is routed to the same end by the same path, or fails with the same error, and
brings up the same warnings. -/
theorem route_eq_of_seenSame {nodes : List Node} {defaultStrategy : Option String} {t : Tree}
    (h : build nodes defaultStrategy = .ok t) (hsame : t.SeenSame (t.walk ctx).path ctx ctx') :
    t.route ctx' = t.route ctx ∧ t.routeWarnings ctx' = t.routeWarnings ctx := by
  have S := build_sound h
  have hwalk : t.walk ctx' = t.walk ctx := walkFrom_eq_of_seenSame _ S.root_mem hsame
  constructor
  · rw [route, route, hwalk]
  · rw [routeWarnings, routeWarnings, hwalk]
    refine congrArg (· ++ _) (List.flatMap_congr fun s hs => ?_)
    cases hn : t.node? s.nodeKey with
    | none => rfl
    | some n => exact warnings_eq_of_seenSame hsame hs hn

/-- A customer with a score, which the way to `repeat` does not ask for. -/
def scoredCustomer : Context :=
  repeatCustomer.put .applicationScore (some (480 : Float))

theorem route_eq_of_seenSame_scored : build lendingNodes none = .ok lendingTree ∧
    lendingTree.SeenSame (lendingTree.walk repeatCustomer).path repeatCustomer scoredCustomer ∧
    lendingTree.route scoredCustomer = lendingTree.route repeatCustomer ∧
    lendingTree.routeWarnings scoredCustomer = lendingTree.routeWarnings repeatCustomer := by
  have hsame : lendingTree.SeenSame (lendingTree.walk repeatCustomer).path repeatCustomer
      scoredCustomer := by
    have hpath : (lendingTree.walk repeatCustomer).path.map PathStep.nodeKey = ["customer"] := by
      cbv
    intro n hn hkey name hname
    rw [hpath, List.mem_singleton] at hkey
    cases eq_of_key (build_sound build_lendingNodes).keys hn (List.mem_cons_self ..) hkey
    cases List.mem_singleton.1 hname
    rfl
  exact ⟨build_lendingNodes, hsame, route_eq_of_seenSame build_lendingNodes hsame⟩

end Tree

end Lending
