import Lending.Tree.Branching

/-! The labels that a node can choose.

Whatever a node asks and whatever the context holds, the chosen label is one of the node's
declared labels, its null branch, or `Other`. -/
namespace Lending

/-- Condition nodes and scorecard gates branch. -/
def Node.isBranching (n : Node) : Bool :=
  match n.kind with
  | .condition _ | .gate _ _ _ => true
  | _ => false

/-- The branch that a node declares for missing values. -/
def Node.nullBranch? (n : Node) : Option String :=
  match n.kind with
  | .condition spec => spec.nullBranch
  | .gate _ _ nullBranch => nullBranch
  | _ => none

namespace Branching

/-- A declared label, or one of the two that need not be declared. -/
def Offered (branches : List Branch) (nullBranch : Option String) (label : String) : Prop :=
  label ∈ branches.map Branch.label ∨ nullBranch = some label ∨ label = otherLabel

variable {branches : List Branch} {nullBranch : Option String}

theorem Offered.of_mem {b : Branch} (h : b ∈ branches) : Offered branches nullBranch b.label :=
  .inl (List.mem_map_of_mem h)

theorem Offered.other : Offered branches nullBranch otherLabel :=
  .inr (.inr rfl)

theorem unmatched_offered : Offered branches nullBranch (unmatched branches).1 := by
  unfold unmatched
  split
  · next b hb => exact .of_mem (List.mem_of_find?_eq_some hb)
  · exact .other

theorem missing_offered : Offered branches nullBranch (missing branches nullBranch).1 := by
  unfold missing
  split
  · exact .inr (.inl rfl)
  · split
    · next b hb =>
      rw [Option.orElse_eq_orElse, Option.orElse_eq_or, Option.or_eq_some_iff] at hb
      rcases hb with hnamed | ⟨_, hfirst⟩
      · exact .of_mem (List.mem_of_find?_eq_some hnamed)
      · exact .of_mem (List.mem_of_head? hfirst)
    · exact .other

theorem missingScore_offered : Offered branches nullBranch (missingScore nullBranch).1 := by
  unfold missingScore
  split
  · exact .inr (.inl rfl)
  · exact .other

theorem twoWay_offered (result : Bool) :
    Offered branches nullBranch (twoWay branches result).1 := by
  unfold twoWay
  split
  · next b hb => exact .of_mem (List.mem_of_getElem? hb)
  · exact .other

theorem categoryChoice_offered (actual : Value) :
    Offered branches nullBranch (categoryChoice branches actual).1 := by
  unfold categoryChoice
  split
  · next b hb => exact .of_mem (List.mem_of_find?_eq_some hb)
  · exact unmatched_offered

theorem bandChoice_offered (actual : Value) :
    Offered branches nullBranch (bandChoice branches actual).1 := by
  unfold bandChoice
  split
  · next b hb =>
    obtain ⟨x, _, hfind⟩ := Option.bind_eq_some_iff.1 hb
    exact .of_mem (List.mem_of_find?_eq_some hfind)
  · exact unmatched_offered

theorem missingClause_eq_some {ctx : Context} {spec : ConditionSpec} {label : String}
    (h : missingClause ctx spec = some label) : spec.nullBranch = some label := by
  unfold missingClause at h
  split at h
  · exact h
  · cases h

end Branching

open Branching

theorem gateStep_offered (key field : String) (branches : List Branch)
    (nullBranch : Option String) (ctx : Context) :
    Offered branches nullBranch (gateStep key field branches nullBranch ctx).branch := by
  unfold gateStep
  dsimp only
  split
  · exact missingScore_offered
  · exact bandChoice_offered _

namespace ConditionSpec

theorem compoundStep_offered (spec : ConditionSpec) (key : String) (ctx : Context) :
    Offered spec.branches spec.nullBranch (spec.compoundStep key ctx).branch := by
  unfold compoundStep
  split
  · next label h => exact .inr (.inl (missingClause_eq_some h))
  · exact twoWay_offered _

/-- Conditions of every type choose an offered label. -/
theorem step_offered (spec : ConditionSpec) (key : String) (ctx : Context) :
    Offered spec.branches spec.nullBranch (spec.step key ctx).branch := by
  unfold step
  split
  · exact spec.compoundStep_offered key ctx
  · exact gateStep_offered ..
  · dsimp only
    split
    · exact missing_offered
    · split
      · exact twoWay_offered _
      · exact categoryChoice_offered _
      · exact bandChoice_offered _

theorem step_nodeKey (spec : ConditionSpec) (key : String) (ctx : Context) :
    (spec.step key ctx).nodeKey = key := by
  unfold step
  split
  · unfold compoundStep
    split <;> rfl
  · rfl
  · rfl

end ConditionSpec

namespace Node

/-! ### Nodes by what they do -/

/-- Only branching nodes decide. -/
theorem branching_of_step {n : Node} {ctx : Context} {s : PathStep} (h : n.step? ctx = some s) :
    (∃ spec, n.kind = .condition spec ∧ s = spec.step n.key ctx) ∨
      ∃ field branches nullBranch, n.kind = .gate field branches nullBranch ∧
        s = gateStep n.key field branches nullBranch ctx := by
  unfold step? at h
  cases hkind : n.kind with
  | condition spec =>
    rw [hkind] at h
    exact .inl ⟨spec, rfl, (Option.some.inj h).symm⟩
  | gate field branches nullBranch =>
    rw [hkind] at h
    exact .inr ⟨field, branches, nullBranch, rfl, (Option.some.inj h).symm⟩
  | strategy id params => simp [hkind] at h
  | assessment id => simp [hkind] at h
  | note text => simp [hkind] at h

theorem kind_of_terminal {n : Node} (h : n.isTerminal = true) :
    (∃ id params, n.kind = .strategy id params) ∨ ∃ id, n.kind = .assessment id := by
  unfold isTerminal at h
  cases hkind : n.kind with
  | strategy id params => exact .inl ⟨id, params, rfl⟩
  | assessment id => exact .inr ⟨id, rfl⟩
  | condition spec => simp [hkind] at h
  | gate field branches nullBranch => simp [hkind] at h
  | note text => simp [hkind] at h

/-- A node that neither decides nor ends a route is an annotation. -/
theorem note_of_passes {n : Node} {ctx : Context} (passes : n.step? ctx = none)
    (goesOn : n.isTerminal = false) : ∃ text, n.kind = .note text := by
  unfold step? at passes
  unfold isTerminal at goesOn
  cases hkind : n.kind with
  | note text => exact ⟨text, rfl⟩
  | condition spec => simp [hkind] at passes
  | gate field branches nullBranch => simp [hkind] at passes
  | strategy id params => simp [hkind] at goesOn
  | assessment id => simp [hkind] at goesOn

/-- A terminal decides nothing. -/
theorem step?_of_terminal {n : Node} (h : n.isTerminal = true) (ctx : Context) :
    n.step? ctx = none := by
  rcases kind_of_terminal h with ⟨id, params, hkind⟩ | ⟨id, hkind⟩
  · rw [step?, hkind]
  · rw [step?, hkind]

/-! ### What a node chooses -/

/-- **The label that a node chooses is declared, its null branch, or `Other`.** -/
theorem step?_offered {n : Node} {ctx : Context} {s : PathStep} (h : n.step? ctx = some s) :
    Offered n.branches n.nullBranch? s.branch := by
  unfold branches nullBranch?
  rcases branching_of_step h with ⟨spec, hkind, rfl⟩ | ⟨field, branches, nullBranch, hkind, rfl⟩
  · rw [hkind]
    exact spec.step_offered n.key ctx
  · rw [hkind]
    exact gateStep_offered n.key field branches nullBranch ctx

/-- A decision is recorded under the key of the node that made it. -/
theorem step?_nodeKey {n : Node} {ctx : Context} {s : PathStep} (h : n.step? ctx = some s) :
    s.nodeKey = n.key := by
  rcases branching_of_step h with ⟨spec, _, rfl⟩ | ⟨field, branches, nullBranch, _, rfl⟩
  · exact spec.step_nodeKey n.key ctx
  · rfl

theorem isSome_step? (n : Node) (ctx : Context) : (n.step? ctx).isSome = n.isBranching := by
  unfold step? isBranching
  cases n.kind <;> rfl

end Node

end Lending
