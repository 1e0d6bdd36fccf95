import Lending.Proofs.Checks
import Lending.Rule.Catalog
import Mathlib.Data.List.Forall2
import Mathlib.Data.List.Sort

/-! Failing rules.

A rule fails when it is switched on, all that it reads is there, its thresholds suit their
operators, and its condition then does not hold. `Rule.Fails` says this of the rule and the
applicant; `failed_evaluate_iff` is that the result of evaluating the rule says the same. The
failing rules of a list are reported by id, and of rules with distinct ids there is one such
order. -/
namespace Lending

/-! ### What a condition comes to -/

/-- There is a value to compare, and the comparison gives `b`. -/
def Value.Compares (actual : Value) (op : Operator) (t : Threshold) (b : Bool) : Prop :=
  actual.isMissing = false ∧ actual.compare op t = .ok b

/-- The attribute that the condition names is known, and comparing it gives `b`. -/
def Condition.Yields (c : Condition) (p : Applicant) (b : Bool) : Prop :=
  ∃ actual, p.lookup c.field = some actual ∧ actual.Compares c.operator c.threshold b

/-- What the comparisons of a rule come to, where each of them can be made. -/
inductive RuleKind.Yields (p : Applicant) : RuleKind → Bool → Prop
  | stored {c : Condition} {b : Bool} (h : c.Yields p b) : Yields p (.stored c) b
  | computed {field : ComputedField} {op : Operator} {t : Threshold} {b : Bool}
      (h : (p.value (.computed field)).Compares op t b) : Yields p (.computed field op t) b
  | compound {logic : Logic} {conditions : List Condition} {outcomes : List Bool}
      (h : List.Forall₂ (fun c b => c.Yields p b) conditions outcomes) :
      Yields p (.compound logic conditions) (logic.combine outcomes)

/-- The rule is switched on and its condition does not hold of the applicant. -/
structure Rule.Fails (r : Rule) (p : Applicant) : Prop where
  active : r.isActive = true
  condition : r.kind.Yields p false

/-! ### What the result of a rule says -/

namespace RuleResult
variable {r : RuleResult}

theorem failed_iff : r.failed = true ↔ r.passed = false ∧ r.skipped = none := by
  simp [failed]

theorem failed_compared (hr : r.skipped = none) (actual : Value) (op : Operator) (t : Threshold) :
    (r.compared actual op t).failed = true ↔ actual.compare op t = .ok false := by
  unfold compared
  cases h : actual.compare op t with
  | error m => simp [failed_iff, malformed]
  | ok passed => simp [failed_iff, hr]

theorem failed_single (hr : r.skipped = none) (field : String) (actual : Option Value)
    (op : Operator) (t : Threshold) :
    (r.single field actual op t).failed = true ↔ ∃ v, actual = some v ∧ v.Compares op t false := by
  cases actual with
  | none => simp [single, failed_iff, unavailable]
  | some v =>
    cases hv : v.isMissing with
    | true => simp [single, failed_iff, unavailable, hv, Value.Compares]
    | false =>
      have := failed_compared (r := { r with operator := some op, threshold := some t }) hr v op t
      simp [single, hv, Value.Compares, this]

theorem single_id_severity (r : RuleResult) (field : String) (actual : Option Value) (op : Operator)
    (t : Threshold) : (r.single field actual op t).ruleId = r.ruleId ∧
      (r.single field actual op t).severity = r.severity := by
  unfold single compared
  dsimp only
  split
  · exact ⟨rfl, rfl⟩
  · split
    · exact ⟨rfl, rfl⟩
    · split <;> exact ⟨rfl, rfl⟩

end RuleResult

theorem Condition.evaluate_ok_iff {c : Condition} {p : Applicant} {b : Bool} :
    c.evaluate p = .ok b ↔ c.Yields p b := by
  unfold evaluate Yields
  cases p.lookup c.field with
  | none => simp
  | some actual =>
    cases hv : actual.isMissing with
    | true => simp [hv, Value.Compares]
    | false => simp [hv, Value.Compares, mapError_ok_iff]

namespace Rule

theorem failed_compoundResult {r : RuleResult} (hr : r.skipped = none) (p : Applicant)
    (logic : Logic) (conditions : List Condition) :
    (compoundResult r p logic conditions).failed = true ↔
      (RuleKind.compound logic conditions).Yields p false := by
  have hyields : (RuleKind.compound logic conditions).Yields p false ↔ ∃ outcomes,
      conditions.mapM (Condition.evaluate · p) = .ok outcomes ∧ logic.combine outcomes = false := by
    simp only [mapM_ok_iff, Condition.evaluate_ok_iff]
    constructor
    · intro h
      generalize false = b at h ⊢
      cases h with
      | compound h => exact ⟨_, h, rfl⟩
    · rintro ⟨outcomes, h, hfalse⟩
      exact hfalse ▸ .compound h
  rw [hyields]
  unfold compoundResult
  cases conditions.mapM (Condition.evaluate · p) with
  | error e => cases e <;> simp [RuleResult.failed_iff, RuleResult.unavailable, RuleResult.malformed]
  | ok outcomes => simp [RuleResult.failed_iff, hr]

/-- **The result of a rule is a failure exactly if the rule fails.** -/
theorem failed_evaluate_iff (r : Rule) (p : Applicant) :
    (r.evaluate p).failed = true ↔ r.Fails p := by
  have hblank : r.blankResult.skipped = none := rfl
  unfold evaluate
  cases hactive : r.isActive with
  | false =>
    have hnot : ¬ r.Fails p := fun h => Bool.false_ne_true (hactive.symm.trans h.active)
    simp [RuleResult.failed_iff, RuleResult.disabled, hnot]
  | true =>
    have hfails : r.Fails p ↔ r.kind.Yields p false := ⟨Fails.condition, fun h => ⟨hactive, h⟩⟩
    rw [hfails, Bool.not_true, if_neg Bool.false_ne_true]
    cases r.kind with
    | stored c =>
      refine (RuleResult.failed_single hblank ..).trans ⟨fun h => .stored h, fun h => ?_⟩
      cases h with
      | stored h => exact h
    | computed field op t =>
      refine (RuleResult.failed_single hblank field.name (some (p.value (.computed field))) op
        t).trans ⟨fun ⟨_, hv, h⟩ => ?_, fun h => ?_⟩
      · cases hv
        exact .computed h
      · cases h with
        | computed h => exact ⟨_, rfl, h⟩
    | compound logic conditions => exact failed_compoundResult hblank p logic conditions

/-! ### Results and their rules -/

theorem evaluate_id_severity (r : Rule) (p : Applicant) :
    (r.evaluate p).ruleId = r.id ∧ (r.evaluate p).severity = r.severity := by
  unfold evaluate
  split
  · exact ⟨rfl, rfl⟩
  · split
    · exact RuleResult.single_id_severity ..
    · exact RuleResult.single_id_severity ..
    · unfold compoundResult
      split <;> exact ⟨rfl, rfl⟩

@[simp] theorem evaluate_ruleId (r : Rule) (p : Applicant) : (r.evaluate p).ruleId = r.id :=
  (r.evaluate_id_severity p).1

@[simp] theorem evaluate_severity (r : Rule) (p : Applicant) :
    (r.evaluate p).severity = r.severity :=
  (r.evaluate_id_severity p).2

end Rule

theorem results_evaluateRules (p : Applicant) (rules : List Rule) :
    (evaluateRules p rules).results = rules.map (Rule.evaluate · p) :=
  rfl

/-! ### The failing rules of a list -/

/-- The failing rules of a list and no others, by id. -/
structure FailingById (p : Applicant) (rules failing : List Rule) : Prop where
  mem_iff : ∀ r, r ∈ failing ↔ r ∈ rules ∧ r.Fails p
  sorted : failing.Pairwise fun a b => a.id < b.id

theorem FailingById.eq_nil_iff {p : Applicant} {rules failing : List Rule}
    (h : FailingById p rules failing) : failing = [] ↔ ∀ r ∈ rules, ¬ r.Fails p := by
  simp only [List.eq_nil_iff_forall_not_mem, h.mem_iff, not_and]

theorem FailingById.none_of_severity {p : Applicant} {rules failing : List Rule}
    {severity : Severity} (h : FailingById p (rules.filter (·.severity == severity)) failing)
    (hnil : failing = []) : ∀ r ∈ rules, r.severity = severity → ¬ r.Fails p :=
  fun r hr hseverity => h.eq_nil_iff.1 hnil r (List.mem_filter.2 ⟨hr, beq_iff_eq.2 hseverity⟩)

/-- The failing rules come out the same, in whatever order the rules are listed. -/
theorem FailingById.unique {p : Applicant} {rules rules' failing failing' : List Rule}
    (h : FailingById p rules failing) (h' : FailingById p rules' failing')
    (hperm : rules.Perm rules') : failing = failing' := by
  have : Std.Irrefl fun a b : Rule => a.id < b.id := ⟨fun a => String.lt_irrefl a.id⟩
  have : Std.Antisymm fun a b : Rule => a.id < b.id :=
    ⟨fun a b hab hba => absurd hba (String.lt_asymm hab)⟩
  refine h.sorted.eq_of_mem_iff h'.sorted fun r => ?_
  rw [h.mem_iff, h'.mem_iff, hperm.mem_iff]

/-- Sorting by id rules with distinct ids puts them in strict order. -/
theorem pairwise_sorted_by_id {rules : List Rule} (hids : (rules.map Rule.id).Nodup) :
    (rules.mergeSort fun a b => decide (a.id ≤ b.id)).Pairwise fun a b => a.id < b.id := by
  have hperm := List.mergeSort_perm rules fun a b => decide (a.id ≤ b.id)
  have hle := @List.pairwise_mergeSort _ (fun a b : Rule => decide (a.id ≤ b.id))
    (fun a b c => by simpa using String.le_trans)
    (fun a b => by simpa using String.le_total a.id b.id) rules
  have hne := List.pairwise_map.1 ((hperm.map Rule.id).nodup_iff.2 hids)
  refine (hle.and hne).imp fun {a b} ⟨hab, hdistinct⟩ => ?_
  exact Classical.byContradiction fun hlt =>
    hdistinct (String.le_antisymm (of_decide_eq_true hab) (String.not_lt.1 hlt))

/-- **The failures of a list of results are those of its failing rules, by id.** -/
theorem exists_failingById {rules : List Rule} (hids : (rules.map Rule.id).Nodup) (p : Applicant) :
    ∃ failing, FailingById p rules failing ∧
      failuresById (rules.map (Rule.evaluate · p)) = failing.map (Rule.evaluate · p) := by
  let failed := rules.filter fun r => (r.evaluate p).failed
  have hids' : (failed.map Rule.id).Nodup := hids.sublist (List.filter_sublist.map Rule.id)
  refine ⟨failed.mergeSort fun a b => decide (a.id ≤ b.id), ⟨fun r => ?_, ?_⟩, ?_⟩
  · rw [List.mem_mergeSort, List.mem_filter, Rule.failed_evaluate_iff]
  · exact pairwise_sorted_by_id hids'
  · rw [failuresById, List.filter_map]
    refine (List.map_mergeSort fun a _ b _ => ?_).symm
    simp only [RuleResult.idOrder, Rule.evaluate_ruleId]

theorem failuresOf_evaluate (severity : Severity) (rules : List Rule) (p : Applicant) :
    failuresOf severity (rules.map (Rule.evaluate · p)) =
      failuresById ((rules.filter (·.severity == severity)).map (Rule.evaluate · p)) := by
  rw [failuresOf, List.filter_map]
  congr 3
  funext r
  simp

end Lending
