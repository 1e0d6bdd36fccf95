import Lending.Proofs.Tree.Reading

/-! Where incomplete applications go.

A node that finds nothing under the attribute it reads decides by a rule of its own, and the rule
looks at no operator, threshold, value or band (`FallsBack`). Gates have a shorter rule, and a
compound condition without a null branch none: there a clause about a missing value does not hold.
The other way round, a decision says that a value was missing only where one was
(`Decides.converse`). -/
namespace Lending
open Branching

/-! ### Missing values -/

/-- Nothing is known under the name, or a text of blanks only. -/
def Branching.Lacks (ctx : Context) (name : String) : Prop :=
  ctx.lookup name = none ∨ ctx.lookup name = some .null ∨
    ∃ s, ctx.lookup name = some (.text s) ∧ Text.isBlankText s = true

theorem Kind.isMissing_toValue {k : Kind} {v : k.Carrier} (h : (k.toValue v).isMissing = true) :
    ∃ s, k.toValue v = .text s ∧ Text.isBlankText s = true := by
  cases k with
  | number => cases h
  | count => cases h
  | flag => cases h
  | text => exact ⟨v, rfl, h⟩

/-- An attribute shows no arrays. -/
theorem Record.isMissing_value {ctx : Context} {a : ContextField}
    (h : (ctx.value a).isMissing = true) :
    ctx.value a = .null ∨ ∃ s, ctx.value a = .text s ∧ Text.isBlankText s = true := by
  cases a with
  | stored a =>
    dsimp only [value] at h ⊢
    cases hget : ctx.get a with
    | none => exact .inl rfl
    | some v =>
      simp only [hget] at h
      exact .inr (Kind.isMissing_toValue h)
  | computed c => cases c

theorem Branching.isMissing_observed_iff {ctx : Context} {name : String} :
    (observed ctx name).isMissing = true ↔ Lacks ctx name := by
  unfold Lacks observed
  constructor
  · intro h
    cases hlookup : ctx.lookup name with
    | none => exact .inl rfl
    | some v =>
      rw [hlookup, Option.getD_some] at h
      obtain ⟨a, _, rfl⟩ := Option.map_eq_some_iff.1 hlookup
      rcases Record.isMissing_value h with hnull | ⟨s, htext, hblank⟩
      · exact .inr (.inl (congrArg some hnull))
      · exact .inr (.inr ⟨s, congrArg some htext, hblank⟩)
  · rintro (hnone | hnull | ⟨s, htext, hblank⟩)
    · rw [hnone]
      rfl
    · rw [hnull]
      rfl
    · rw [htext]
      exact hblank

/-! ### The rule of a node -/

/-- The label taken for a missing value: the null branch, else the first branch that is named
`other`, else the first branch. -/
inductive FallsBack (branches : List Branch) : Option String → String → Selection → Prop
  | nullBranch (label : String) : FallsBack branches (some label) label .nullBranch
  | other {before after : List Branch} {b : Branch} (split : branches = before ++ b :: after)
      (named : Text.keyword b.label = "other")
      (first : ∀ d ∈ before, Text.keyword d.label ≠ "other") :
      FallsBack branches none b.label .nullFallback
  | first {rest : List Branch} {b : Branch} (split : branches = b :: rest)
      (unnamed : ∀ d ∈ branches, Text.keyword d.label ≠ "other") :
      FallsBack branches none b.label .nullFallback

/-- The shorter rule for a missing score: no branch is looked for. -/
structure ScoreFallsBack (nullBranch : Option String) (s : PathStep) : Prop where
  branch : s.branch = nullBranch.getD "Other"
  selection : s.selection = if nullBranch.isSome then .nullBranch else .nullFallback

/-- The clause compares a value that is there, and the comparison holds. -/
def Clause.Holds (c : Clause) (ctx : Context) : Prop :=
  ¬ Lacks ctx c.field ∧
    ∃ v, ctx.lookup c.field = some v ∧ v.compareValue c.operator c.value = .ok true

/-- All clauses hold, or one of them does, as the condition's logic asks. -/
def ConditionSpec.Holds (spec : ConditionSpec) (ctx : Context) : Prop :=
  match spec.logic with
  | .and => ∀ c ∈ spec.clauses, c.Holds ctx
  | .or => ∃ c ∈ spec.clauses, c.Holds ctx

/-- What missing values make of a condition's decision. -/
structure ConditionSpec.MindsMissing (spec : ConditionSpec) (ctx : Context) (s : PathStep) :
    Prop where
  /-- Conditions that match one value against their branches. -/
  single : spec.type ∈ [ConditionType.binary, .categorical, .numericRange] →
    ∃ name, spec.field = some name ∧
      (Lacks ctx name → FallsBack spec.branches spec.nullBranch s.branch s.selection)
  score : spec.type = .scorecardGate →
    ∃ name, spec.field = some name ∧ (Lacks ctx name → ScoreFallsBack spec.nullBranch s)
  /-- A compound condition goes to its null branch if any value is missing. -/
  nullClause : spec.type = .compound → ∀ label, spec.nullBranch = some label →
    (∃ c ∈ spec.clauses, Lacks ctx c.field) → s.branch = label ∧ s.selection = .nullBranch
  /-- Without a null branch it goes by its clauses. -/
  clauses : spec.type = .compound → spec.nullBranch = none → ∃ yes no, spec.branches = [yes, no] ∧
    (spec.Holds ctx ∧ s.branch = yes.label ∧ s.actual = .flag true ∨
      ¬ spec.Holds ctx ∧ s.branch = no.label ∧ s.actual = .flag false)

/-- What missing values make of the decision of a branching node. -/
inductive Node.MindsMissing (n : Node) (ctx : Context) (s : PathStep) : Prop
  | condition {spec : ConditionSpec} (kind : n.kind = .condition spec)
      (minds : spec.MindsMissing ctx s)
  | gate {field : String} {branches : List Branch} {nullBranch : Option String}
      (kind : n.kind = .gate field branches nullBranch)
      (minds : Lacks ctx field → ScoreFallsBack nullBranch s)

/-- Whether a selection says that a value was missing. -/
def Selection.isForMissing : Selection → Bool
  | .nullBranch | .nullFallback => true
  | _ => false

/-! ### Choices where the value is missing -/

namespace Branching
variable {branches : List Branch} {nullBranch : Option String} {ctx : Context}

theorem missing_fallsBack (h : branches ≠ []) :
    FallsBack branches nullBranch (missing branches nullBranch).1
      (missing branches nullBranch).2 := by
  unfold missing
  cases nullBranch with
  | some label => exact .nullBranch label
  | none =>
    dsimp only
    rw [Option.orElse_eq_orElse, Option.orElse_eq_or]
    cases hnamed : branches.find? isOther with
    | some b =>
      obtain ⟨hb, before, after, hsplit, hbefore⟩ := List.find?_eq_some_iff_append.1 hnamed
      refine .other hsplit (beq_iff_eq.1 hb) fun d hd => ?_
      simpa [isOther] using hbefore d hd
    | none =>
      obtain ⟨b, rest, hsplit⟩ := List.exists_cons_of_ne_nil h
      rw [hsplit, List.head?_cons, Option.none_or, ← hsplit]
      refine .first hsplit fun d hd => ?_
      simpa [isOther] using List.find?_eq_none.1 hnamed d hd

theorem missingScore_eq (nullBranch : Option String) : missingScore nullBranch =
    (nullBranch.getD "Other", if nullBranch.isSome then .nullBranch else .nullFallback) := by
  cases nullBranch <;> rfl

/-! ### Choices where it is there -/

theorem unmatched_isForMissing (branches : List Branch) :
    (unmatched branches).2.isForMissing = false := by
  unfold unmatched
  split <;> rfl

theorem twoWay_isForMissing (branches : List Branch) (result : Bool) :
    (twoWay branches result).2.isForMissing = false := by
  unfold twoWay
  split <;> rfl

theorem categoryChoice_isForMissing (branches : List Branch) (actual : Value) :
    (categoryChoice branches actual).2.isForMissing = false := by
  unfold categoryChoice
  split
  · rfl
  · exact unmatched_isForMissing branches

theorem bandChoice_isForMissing (branches : List Branch) (actual : Value) :
    (bandChoice branches actual).2.isForMissing = false := by
  unfold bandChoice
  split
  · rfl
  · exact unmatched_isForMissing branches

/-! ### Clauses -/

theorem clauseHolds_iff {c : Clause} : clauseHolds ctx c = true ↔ c.Holds ctx := by
  unfold clauseHolds Clause.Holds
  rw [← isMissing_observed_iff, Bool.and_eq_true, Bool.not_eq_true', Bool.not_eq_true]
  refine and_congr_right fun hthere => ?_
  unfold holds observed at *
  cases hlookup : ctx.lookup c.field with
  | none => simp [hlookup, Value.isMissing] at hthere
  | some v =>
    cases hcompare : v.compareValue c.operator c.value <;> simp [hcompare]

theorem combine_clauseHolds_iff {spec : ConditionSpec} :
    spec.logic.combine (spec.clauses.map (clauseHolds ctx)) = true ↔ spec.Holds ctx := by
  unfold ConditionSpec.Holds Logic.combine
  cases spec.logic <;> simp [clauseHolds_iff]

theorem missingClause_eq {spec : ConditionSpec} (h : ∃ c ∈ spec.clauses, Lacks ctx c.field) :
    missingClause ctx spec = spec.nullBranch := by
  obtain ⟨c, hc, hlacks⟩ := h
  have hany : (spec.clauses.any fun c => (observed ctx c.field).isMissing) = true :=
    List.any_eq_true.2 ⟨c, hc, isMissing_observed_iff.2 hlacks⟩
  rw [missingClause, if_pos hany]

theorem lacks_of_missingClause {spec : ConditionSpec} {label : String}
    (h : missingClause ctx spec = some label) : ∃ c ∈ spec.clauses, Lacks ctx c.field := by
  unfold missingClause at h
  split at h
  · next hany =>
    obtain ⟨c, hc, hmissing⟩ := List.any_eq_true.1 hany
    exact ⟨c, hc, isMissing_observed_iff.1 hmissing⟩
  · cases h

end Branching

/-! ### Nodes -/

theorem scoreFallsBack_gateStep {ctx : Context} {field : String} (h : Lacks ctx field)
    (key : String) (branches : List Branch) (nullBranch : Option String) :
    ScoreFallsBack nullBranch (gateStep key field branches nullBranch ctx) := by
  rw [gateStep, if_pos (isMissing_observed_iff.2 h), missingScore_eq]
  exact ⟨rfl, rfl⟩

theorem lacks_of_gateStep {ctx : Context} {key field : String} {branches : List Branch}
    {nullBranch : Option String}
    (h : (gateStep key field branches nullBranch ctx).selection.isForMissing = true) :
    Lacks ctx field := by
  refine isMissing_observed_iff.1 (by_contra fun hthere => ?_)
  simp only [gateStep, if_neg hthere, bandChoice_isForMissing, Bool.false_eq_true] at h

namespace ConditionSpec
variable {spec : ConditionSpec} {ctx : Context}

theorem fallsBack_step (htype : spec.type ∈ [ConditionType.binary, .categorical, .numericRange])
    {name : String} (hfield : spec.field = some name) (hbranches : spec.branches ≠ [])
    (h : Lacks ctx name) (key : String) : FallsBack spec.branches spec.nullBranch
      (spec.step key ctx).branch (spec.step key ctx).selection := by
  have hmissing : (observed ctx (spec.field.getD "")).isMissing = true := by
    rw [hfield]
    exact isMissing_observed_iff.2 h
  unfold step
  split
  case h_1 hcompound => simp [hcompound] at htype
  case h_2 hgate => simp [hgate] at htype
  case h_3 =>
    dsimp only
    rw [if_pos hmissing]
    exact missing_fallsBack hbranches

theorem compoundStep_null {label : String} (hnull : spec.nullBranch = some label)
    (h : ∃ c ∈ spec.clauses, Lacks ctx c.field) (key : String) :
    (spec.compoundStep key ctx).branch = label ∧
      (spec.compoundStep key ctx).selection = .nullBranch := by
  rw [compoundStep, missingClause_eq h, hnull]
  exact ⟨rfl, rfl⟩

theorem compoundStep_clauses {yes no : Branch} (hnull : spec.nullBranch = none)
    (hbranches : spec.branches = [yes, no]) (key : String) :
    spec.Holds ctx ∧ (spec.compoundStep key ctx).branch = yes.label ∧
        (spec.compoundStep key ctx).actual = .flag true ∨
      ¬ spec.Holds ctx ∧ (spec.compoundStep key ctx).branch = no.label ∧
        (spec.compoundStep key ctx).actual = .flag false := by
  have hnone : missingClause ctx spec = none := by simp [missingClause, hnull]
  rw [← combine_clauseHolds_iff, compoundStep, hnone, hbranches]
  dsimp only
  cases spec.logic.combine (spec.clauses.map (clauseHolds ctx)) with
  | true => exact .inl ⟨rfl, rfl, rfl⟩
  | false => exact .inr ⟨Bool.false_ne_true, rfl, rfl⟩

theorem attributes_eq {name : String} (hcompound : spec.type ≠ .compound)
    (hfield : spec.field = some name) : spec.attributes = [name] := by
  unfold attributes
  split
  case h_1 htype => exact absurd htype hcompound
  case h_2 => rw [hfield, Option.toList_some]

/-- What a decision says to have been missing was missing. -/
theorem lacks_of_step (hfield : spec.type ≠ .compound → ∃ name, spec.field = some name)
    {key : String} (h : (spec.step key ctx).selection.isForMissing = true) :
    ∃ name ∈ spec.attributes, Lacks ctx name := by
  unfold step at h
  split at h
  case h_1 htype =>
    unfold compoundStep at h
    split at h
    case h_1 label hlabel =>
      obtain ⟨c, hc, hlacks⟩ := lacks_of_missingClause hlabel
      simp only [attributes, htype]
      exact ⟨c.field, List.mem_map_of_mem hc, hlacks⟩
    case h_2 => simp [twoWay_isForMissing] at h
  case h_2 htype =>
    have hcompound : spec.type ≠ .compound := by simp [htype]
    obtain ⟨name, hname⟩ := hfield hcompound
    rw [hname] at h
    rw [attributes_eq hcompound hname]
    exact ⟨name, List.mem_singleton_self name, lacks_of_gateStep h⟩
  case h_3 hcompound hgate =>
    obtain ⟨name, hname⟩ := hfield hcompound
    rw [hname, Option.getD_some] at h
    rw [attributes_eq hcompound hname]
    refine ⟨name, List.mem_singleton_self name, isMissing_observed_iff.1 ?_⟩
    by_contra hthere
    dsimp only at h
    rw [if_neg hthere] at h
    split at h
    · simp [binaryChoice, twoWay_isForMissing] at h
    · simp [categoryChoice_isForMissing] at h
    · simp [bandChoice_isForMissing] at h

theorem mindsMissing (h : Tree.Shaped spec) (ctx : Context) (key : String) :
    spec.MindsMissing ctx (spec.step key ctx) := by
  refine ⟨fun htype => ?single, fun htype => ?score, fun htype label hnull hlacks => ?nullClause,
    fun htype hnull => ?clauses⟩
  case single =>
    obtain ⟨name, hname⟩ := h.field fun hcompound => by simp [hcompound] at htype
    exact ⟨name, hname, fun hlacks => spec.fallsBack_step htype hname h.branches hlacks key⟩
  case score =>
    obtain ⟨name, hname⟩ := h.field (by simp [htype])
    simp only [step, htype, hname, Option.getD_some]
    exact ⟨name, rfl, fun hlacks => scoreFallsBack_gateStep hlacks ..⟩
  case nullClause =>
    simp only [step, htype]
    exact spec.compoundStep_null hnull hlacks key
  case clauses =>
    obtain ⟨yes, no, hpair⟩ := h.twoWay (.inr htype)
    simp only [step, htype]
    exact ⟨yes, no, hpair, spec.compoundStep_clauses hnull hpair key⟩

end ConditionSpec

/-! ### Built trees -/

namespace Tree

/-- A node does not take a value for missing that is there. -/
theorem Sound.lacks_of_step? {t : Tree} (S : t.Sound) {n : Node} (hn : n ∈ t.nodes) {ctx : Context}
    {s : PathStep} (hs : n.step? ctx = some s) (h : s.selection.isForMissing = true) :
    ∃ name ∈ n.attributes, Lacks ctx name := by
  rcases Node.branching_of_step hs with
    ⟨spec, hkind, rfl⟩ | ⟨field, branches, nullBranch, hkind, rfl⟩
  · simp only [Node.attributes, hkind]
    exact ConditionSpec.lacks_of_step (S.shaped hn hkind).field h
  · simp only [Node.attributes, hkind]
    exact ⟨field, List.mem_singleton_self field, lacks_of_gateStep h⟩

theorem Sound.mindsMissing {t : Tree} (S : t.Sound) {n : Node} (hn : n ∈ t.nodes) {ctx : Context}
    {s : PathStep} (hs : n.step? ctx = some s) : n.MindsMissing ctx s := by
  rcases Node.branching_of_step hs with
    ⟨spec, hkind, rfl⟩ | ⟨field, branches, nullBranch, hkind, rfl⟩
  · exact .condition hkind (ConditionSpec.mindsMissing (S.shaped hn hkind) ctx n.key)
  · exact .gate hkind fun hlacks => scoreFallsBack_gateStep hlacks ..

/-- **Missing values are routed by rule.** Every branching node of a built tree decides, where
values are missing as `Node.MindsMissing` says, whatever else the node is made of; and where its
decision is recorded as one for a missing value, a value that it reads is missing. -/
theorem missing_routed {nodes : List Node} {defaultStrategy : Option String} {t : Tree}
    (h : build nodes defaultStrategy = .ok t) {n : Node} (hn : n ∈ t.nodes)
    (hbranching : n.isBranching = true) (ctx : Context) : ∃ s, n.step? ctx = some s ∧
      n.MindsMissing ctx s ∧ (s.selection = .nullBranch ∨ s.selection = .nullFallback →
        ∃ name ∈ n.attributes, Lacks ctx name) := by
  obtain ⟨s, hs⟩ := Option.isSome_iff_exists.1 ((n.isSome_step? ctx).trans hbranching)
  have S := build_sound h
  refine ⟨s, hs, S.mindsMissing hn hs, fun hselection => S.lacks_of_step? hn hs ?_⟩
  rcases hselection with hselection | hselection <;> rw [hselection] <;> rfl

/-- Who is known: a repeat customer, or one whom the bureau rates. -/
def knownNode : Node :=
  { Node.ofKind "known" (.condition (.compound .or
      [⟨"bureau_score", .gte, .number 600⟩, ⟨"is_existing_customer", .eq, .flag true⟩]
      "Known" "Unknown")) with
    isRoot := true }

def knownNodes : List Node :=
  [ knownNode,
    { Node.ofKind "standard" (.strategy "standard_v1" []) with
      parent := some "known", label := some "Known" },
    { Node.ofKind "manual" (.assessment "manual_review") with
      parent := some "known", label := some "Unknown" } ]

/-- The bureau does not rate the repeat customer, who is known all the same. -/
theorem missing_routed_unrated : ∃ t, build knownNodes none = .ok t ∧ knownNode ∈ t.nodes ∧
    knownNode.isBranching = true ∧ ∃ s, knownNode.step? repeatCustomer = some s ∧
      knownNode.MindsMissing repeatCustomer s ∧
      (s.selection = .nullBranch ∨ s.selection = .nullFallback →
        ∃ name ∈ knownNode.attributes, Lacks repeatCustomer name) ∧
      Lacks repeatCustomer "bureau_score" ∧ s.branch = "Known" := by
  have hbuild : build knownNodes none = .ok ⟨knownNodes, knownNode, none⟩ := rfl
  have hlacks : Lacks repeatCustomer "bureau_score" := .inr (.inl (by cbv))
  have hknown : (knownNode.step? repeatCustomer).map PathStep.branch = some "Known" := by cbv
  obtain ⟨s, hs, hminds, hconverse⟩ :=
    missing_routed hbuild (n := knownNode) (List.mem_cons_self ..) rfl repeatCustomer
  rw [hs] at hknown
  exact ⟨_, hbuild, List.mem_cons_self .., rfl, s, hs, hminds, hconverse, hlacks,
    Option.some.inj hknown⟩

end Tree

end Lending
