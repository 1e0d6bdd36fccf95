import Lending.Proofs.Rule.Failure

/-! What a list of rules comes to.

The outcome of a list is settled by the failing rules and their severities, and its reasons are the
ids of the failing rules, sorted within a severity (`Aggregated`). So neither the order of the list
nor any rule that does not fail has a part in them. Ids may repeat here; a sorted list of texts is
fixed by how often each text is in it. -/
namespace Lending

instance (r : Rule) (p : Applicant) : Decidable (r.Fails p) :=
  decidable_of_iff _ (r.failed_evaluate_iff p)

/-! ### Rules that are passed over -/

namespace RuleResult
variable {r : RuleResult}

/-- A result that is skipped is recorded as passed. -/
def Lenient (r : RuleResult) : Prop :=
  r.isSkipped = true → r.passed = true

theorem lenient_of_passed (h : r.passed = true) : r.Lenient :=
  fun _ => h

theorem lenient_of_looked_at (h : r.skipped = none) : r.Lenient := by
  intro hskipped
  rw [isSkipped, h] at hskipped
  cases hskipped

theorem lenient_compared (hpassed : r.passed = true) (hskipped : r.skipped = none) (actual : Value)
    (op : Operator) (t : Threshold) : (r.compared actual op t).Lenient := by
  unfold compared
  cases actual.compare op t with
  | ok passed => exact lenient_of_looked_at hskipped
  | error m => exact lenient_of_passed hpassed

theorem lenient_single (hpassed : r.passed = true) (hskipped : r.skipped = none) (field : String)
    (actual : Option Value) (op : Operator) (t : Threshold) :
    (r.single field actual op t).Lenient := by
  unfold single
  cases actual with
  | none => exact lenient_of_passed hpassed
  | some v =>
    dsimp only
    split
    · exact lenient_of_passed hpassed
    · exact lenient_compared (r := { r with operator := some op, threshold := some t }) hpassed
        hskipped v op t

end RuleResult

namespace Rule

theorem lenient_compoundResult {r : RuleResult} (hpassed : r.passed = true)
    (hskipped : r.skipped = none) (p : Applicant) (logic : Logic) (conditions : List Condition) :
    (compoundResult r p logic conditions).Lenient := by
  unfold compoundResult
  cases conditions.mapM (Condition.evaluate · p) with
  | ok outcomes => exact RuleResult.lenient_of_looked_at hskipped
  | error e =>
    cases e with
    | unavailable field => exact RuleResult.lenient_of_passed hpassed
    | malformed m => exact RuleResult.lenient_of_passed hpassed

/-- However a rule comes to be skipped, it is recorded as passed. -/
theorem lenient_evaluate (r : Rule) (p : Applicant) : (r.evaluate p).Lenient := by
  have hpassed : r.blankResult.passed = true := rfl
  have hskipped : r.blankResult.skipped = none := rfl
  unfold evaluate
  split
  · exact RuleResult.lenient_of_passed hpassed
  · cases r.kind with
    | stored c => apply RuleResult.lenient_single hpassed hskipped
    | computed field op t => apply RuleResult.lenient_single hpassed hskipped
    | compound logic conditions => apply lenient_compoundResult hpassed hskipped

end Rule

/-! ### Failing rules of a severity -/

/-- The failing rules of a severity, in the order of the list. -/
def failingOf (p : Applicant) (severity : Severity) (rules : List Rule) : List Rule :=
  rules.filter fun r => r.severity = severity ∧ r.Fails p

variable {p : Applicant} {severity : Severity} {rules rules' : List Rule}

theorem mem_failingOf {r : Rule} :
    r ∈ failingOf p severity rules ↔ r ∈ rules ∧ r.severity = severity ∧ r.Fails p := by
  simp [failingOf]

theorem failingOf_eq_nil_iff :
    failingOf p severity rules = [] ↔ ∀ r ∈ rules, r.severity = severity → ¬ r.Fails p := by
  simp only [List.eq_nil_iff_forall_not_mem, mem_failingOf, not_and]

/-- Rules that do not fail leave no trace, and the order of the others is kept. -/
theorem failingOf_perm {dropped : List Rule} (hperm : rules.Perm (rules' ++ dropped))
    (hdropped : ∀ r ∈ dropped, ¬ r.Fails p) (severity : Severity) :
    (failingOf p severity rules).Perm (failingOf p severity rules') := by
  have hnone : failingOf p severity dropped = [] :=
    failingOf_eq_nil_iff.2 fun r hr _ => hdropped r hr
  have hfailing : (failingOf p severity rules).Perm (failingOf p severity (rules' ++ dropped)) :=
    hperm.filter _
  have happend : failingOf p severity (rules' ++ dropped) =
      failingOf p severity rules' ++ failingOf p severity dropped := List.filter_append ..
  rwa [happend, hnone, List.append_nil] at hfailing

/-! ### Reasons -/

/-- The ids of rules, each as often as it is there, in sorted order. -/
structure SortedIds (rules : List Rule) (ids : List String) : Prop where
  perm : ids.Perm (rules.map Rule.id)
  sorted : ids.Pairwise (· ≤ ·)

theorem SortedIds.unique {ids ids' : List String} (h : SortedIds rules ids)
    (h' : SortedIds rules' ids') (hperm : rules.Perm rules') : ids = ids' := by
  have hids : ids.Perm ids' := (h.perm.trans (hperm.map Rule.id)).trans h'.perm.symm
  exact hids.eq_of_pairwise (fun _ _ _ _ => String.le_antisymm) h.sorted h'.sorted

theorem SortedIds.eq_nil_iff {ids : List String} (h : SortedIds rules ids) :
    ids = [] ↔ rules = [] := by
  rw [← List.length_eq_zero_iff, h.perm.length_eq, List.length_map, List.length_eq_zero_iff]

/-- The failures of a list of results are reported by sorted id. -/
theorem sortedIds_failuresOf (p : Applicant) (severity : Severity) (rules : List Rule) :
    SortedIds (failingOf p severity rules)
      ((failuresOf severity (rules.map (Rule.evaluate · p))).map RuleResult.ruleId) := by
  have hfailing : ((rules.map (Rule.evaluate · p)).filter (·.severity == severity)).filter
      RuleResult.failed = (failingOf p severity rules).map (Rule.evaluate · p) := by
    rw [List.filter_filter, List.filter_map, failingOf]
    congr 2
    funext r
    simp [Bool.and_comm, beq_eq_decide, ← r.failed_evaluate_iff p]
  rw [failuresOf, failuresById, hfailing]
  constructor
  · have hperm := List.mergeSort_perm ((failingOf p severity rules).map (Rule.evaluate · p))
      RuleResult.idOrder
    have hids := hperm.map RuleResult.ruleId
    rwa [List.map_map, Function.comp_def, funext (Rule.evaluate_ruleId · p)] at hids
  · rw [List.pairwise_map]
    refine (List.pairwise_mergeSort ?trans ?total _).imp fun h => of_decide_eq_true h
    case trans =>
      intro a b c hab hbc
      exact decide_eq_true (String.le_trans (of_decide_eq_true hab) (of_decide_eq_true hbc))
    case total =>
      intro a b
      simpa [RuleResult.idOrder] using String.le_total a.ruleId b.ruleId

/-! ### The evaluation of a list -/

/-- A result says of its rule whether it failed, and it never holds a skipped rule against the
applicant. -/
structure RuleResult.Reports (p : Applicant) (r : Rule) (result : RuleResult) : Prop where
  id : result.ruleId = r.id
  severity : result.severity = r.severity
  failed_iff : result.failed = true ↔ r.Fails p
  lenient : result.isSkipped = true → result.passed = true

/-- What the evaluation of a list of rules says. -/
structure Aggregated (p : Applicant) (rules : List Rule) (e : Evaluation) : Prop where
  /-- One result for each rule, in their order. -/
  results : List.Forall₂ (RuleResult.Reports p) rules e.results
  declines : e.outcome = .autoDecline ↔ ∃ r ∈ rules, r.severity = .hard ∧ r.Fails p
  reviews : e.outcome = .manualReview ↔
    (∀ r ∈ rules, r.severity = .hard → ¬ r.Fails p) ∧ ∃ r ∈ rules, r.severity = .refer ∧ r.Fails p
  approves : e.outcome = .autoApprove ↔ ∀ r ∈ rules, ¬ r.Fails p
  /-- The failing hard rules come first. -/
  reasons : ∃ hard refer, SortedIds (failingOf p .hard rules) hard ∧
    SortedIds (failingOf p .refer rules) refer ∧ e.reasons = hard ++ refer

theorem ofFailures_eq (hard refer : List RuleResult) : Aggregate.ofFailures hard refer =
    if hard = [] then (if refer = [] then .autoApprove else .manualReview) else .autoDecline := by
  cases hard <;> cases refer <;> rfl

/-- The outcome is a matter of which severities have a failing rule. -/
theorem outcome_evaluateRules (p : Applicant) (rules : List Rule) :
    (evaluateRules p rules).outcome =
      if failingOf p .hard rules = [] then
        (if failingOf p .refer rules = [] then .autoApprove else .manualReview)
      else .autoDecline := by
  have hnil (severity : Severity) : failuresOf severity (rules.map (Rule.evaluate · p)) = [] ↔
      failingOf p severity rules = [] := by
    rw [← (sortedIds_failuresOf p severity rules).eq_nil_iff, List.map_eq_nil_iff]
  show Aggregate.ofFailures (failuresOf .hard _) (failuresOf .refer _) = _
  simp only [ofFailures_eq, hnil]

/-- How severe an outcome is. -/
def Aggregate.weight : Aggregate → Nat
  | .autoApprove => 0
  | .manualReview => 1
  | .autoDecline => 2

instance : LE Aggregate :=
  ⟨fun a b => a.weight ≤ b.weight⟩

instance (a b : Aggregate) : Decidable (a ≤ b) :=
  inferInstanceAs (Decidable (a.weight ≤ b.weight))

/-- The outcome is no more severe if no severity comes by failing rules that had none. -/
theorem outcome_evaluateRules_le
    (h : ∀ severity, failingOf p severity rules = [] → failingOf p severity rules' = []) :
    (evaluateRules p rules').outcome ≤ (evaluateRules p rules).outcome := by
  rw [outcome_evaluateRules, outcome_evaluateRules]
  by_cases hhard : failingOf p .hard rules = []
  · rw [if_pos hhard, if_pos (h .hard hhard)]
    by_cases hrefer : failingOf p .refer rules = []
    · rw [if_pos hrefer, if_pos (h .refer hrefer)]
      decide
    · rw [if_neg hrefer]
      split <;> decide
  · rw [if_neg hhard]
    split_ifs <;> decide

theorem reasons_evaluateRules (p : Applicant) (rules : List Rule) : ∃ hard refer,
    SortedIds (failingOf p .hard rules) hard ∧ SortedIds (failingOf p .refer rules) refer ∧
      (evaluateRules p rules).reasons = hard ++ refer :=
  ⟨_, _, sortedIds_failuresOf p .hard rules, sortedIds_failuresOf p .refer rules, List.map_append⟩

theorem exists_failing_iff :
    (∃ r ∈ rules, r.severity = severity ∧ r.Fails p) ↔ failingOf p severity rules ≠ [] := by
  rw [Ne, failingOf_eq_nil_iff]
  simp only [not_forall, not_not, exists_prop]

theorem none_failing_iff : (∀ r ∈ rules, ¬ r.Fails p) ↔
    failingOf p .hard rules = [] ∧ failingOf p .refer rules = [] := by
  rw [failingOf_eq_nil_iff, failingOf_eq_nil_iff]
  constructor
  · intro h
    exact ⟨fun r hr _ => h r hr, fun r hr _ => h r hr⟩
  · rintro ⟨hhard, hrefer⟩ r hr
    cases hseverity : r.severity with
    | hard => exact hhard r hr hseverity
    | refer => exact hrefer r hr hseverity

theorem aggregated_evaluateRules (p : Applicant) (rules : List Rule) :
    Aggregated p rules (evaluateRules p rules) := by
  refine ⟨?results, ?declines, ?reviews, ?approves, reasons_evaluateRules p rules⟩
  case results =>
    rw [results_evaluateRules, List.forall₂_map_right_iff, List.forall₂_same]
    intro r _
    exact ⟨r.evaluate_ruleId p, r.evaluate_severity p, r.failed_evaluate_iff p,
      r.lenient_evaluate p⟩
  case declines =>
    rw [exists_failing_iff, outcome_evaluateRules]
    split_ifs <;> simp_all
  case reviews =>
    rw [exists_failing_iff, ← failingOf_eq_nil_iff, outcome_evaluateRules]
    split_ifs <;> simp_all
  case approves =>
    rw [none_failing_iff, outcome_evaluateRules]
    split_ifs <;> simp_all

/-- An evaluation looks at nothing but the failing rules. -/
theorem evaluateRules_without {dropped : List Rule} (hperm : rules.Perm (rules' ++ dropped))
    (hdropped : ∀ r ∈ dropped, ¬ r.Fails p) :
    (evaluateRules p rules').outcome = (evaluateRules p rules).outcome ∧
      (evaluateRules p rules').reasons = (evaluateRules p rules).reasons := by
  have hfailing := failingOf_perm hperm hdropped
  constructor
  · have hnil (severity : Severity) :
        failingOf p severity rules' = [] ↔ failingOf p severity rules = [] := by
      rw [← List.length_eq_zero_iff, ← (hfailing severity).length_eq, List.length_eq_zero_iff]
    simp only [outcome_evaluateRules, hnil]
  · obtain ⟨hard, refer, hhard, hrefer, hreasons⟩ := reasons_evaluateRules p rules
    obtain ⟨hard', refer', hhard', hrefer', hreasons'⟩ := reasons_evaluateRules p rules'
    rw [hreasons, hreasons', hhard.unique hhard' (hfailing .hard),
      hrefer.unique hrefer' (hfailing .refer)]

/-- **The failing rules settle a list of rules.** It is evaluated as `Aggregated` says; the outcome
and the reasons are the same for the rules in any other order, and for those that are kept where
rules that do not fail are dropped. -/
theorem failures_settle (p : Applicant) (rules : List Rule) :
    Aggregated p rules (evaluateRules p rules) ∧
      (∀ reordered, rules.Perm reordered →
        (evaluateRules p reordered).outcome = (evaluateRules p rules).outcome ∧
          (evaluateRules p reordered).reasons = (evaluateRules p rules).reasons) ∧
      ∀ kept dropped, rules.Perm (kept ++ dropped) → (∀ r ∈ dropped, ¬ r.Fails p) →
        (evaluateRules p kept).outcome = (evaluateRules p rules).outcome ∧
          (evaluateRules p kept).reasons = (evaluateRules p rules).reasons := by
  refine ⟨aggregated_evaluateRules p rules, ?reordered, ?dropped⟩
  case reordered =>
    intro reordered hperm
    have hperm : rules.Perm (reordered ++ []) := by rwa [List.append_nil]
    exact evaluateRules_without hperm (List.forall_mem_nil _)
  case dropped =>
    intro kept dropped hperm hdropped
    exact evaluateRules_without hperm hdropped

/-- Two rules of one id and a third; each fails for someone of seventeen with much debt. -/
def youthRules : List Rule :=
  [.stored "max_dti" "Maximum debt-to-income ratio" "dti_ratio" .lte (.number 0.45) .refer,
    .stored "min_age" "Minimum age" "age" .gte (.number 18) .hard,
    .stored "max_dti" "Hard limit of debt" "dti_ratio" .lte (.number 0.6) .hard]

/-- Rules that are skipped: switched off, of an attribute that nobody knows, of one that is not
there, and with a threshold that does not suit the operator. -/
def idleRules : List Rule :=
  [{ Rule.stored "min_age_21" "Full age" "age" .gte (.number 21) .hard with enabled := false },
    .stored "min_height" "Minimum height" "height" .gte (.number 160) .hard,
    .stored "min_income" "Minimum income" "monthly_income" .gte (.number 1000) .hard,
    .stored "age_band" "Ages" "age" .between (.number 18) .hard]

def youth : Applicant :=
  ((Record.empty : Applicant).put .age (some (17 : Float))).put .dtiRatio (some (0.7 : Float))

/-- The reasons are the same backwards, and without the rules that are skipped. -/
theorem failures_settle_youth :
    (evaluateRules youth (youthRules ++ idleRules)).outcome = .autoDecline ∧
      (evaluateRules youth (youthRules ++ idleRules)).reasons = ["max_dti", "min_age", "max_dti"] ∧
      (evaluateRules youth (youthRules ++ idleRules).reverse).reasons =
        ["max_dti", "min_age", "max_dti"] ∧
      (∀ r ∈ idleRules, ¬ r.Fails youth) ∧
      (evaluateRules youth youthRules).outcome = .autoDecline ∧
      (evaluateRules youth youthRules).reasons = ["max_dti", "min_age", "max_dti"] := by
  obtain ⟨haggregated, hreordered, hdropped⟩ := failures_settle youth (youthRules ++ idleRules)
  have hidle : ∀ r ∈ idleRules, ¬ r.Fails youth := by decide +kernel
  have hhard : SortedIds (failingOf youth .hard (youthRules ++ idleRules))
      ["max_dti", "min_age"] := by
    have hids : (failingOf youth .hard (youthRules ++ idleRules)).map Rule.id =
        ["min_age", "max_dti"] := by decide +kernel
    constructor
    · rw [hids]
      exact .swap ..
    · decide
  have hrefer : SortedIds (failingOf youth .refer (youthRules ++ idleRules)) ["max_dti"] := by
    have hids : (failingOf youth .refer (youthRules ++ idleRules)).map Rule.id = ["max_dti"] := by
      decide +kernel
    constructor
    · rw [hids]
    · decide
  have houtcome : (evaluateRules youth (youthRules ++ idleRules)).outcome = .autoDecline :=
    haggregated.declines.2 (exists_failing_iff.2 fun hnil => by cases hhard.eq_nil_iff.2 hnil)
  have hreasons : (evaluateRules youth (youthRules ++ idleRules)).reasons =
      ["max_dti", "min_age", "max_dti"] := by
    obtain ⟨hard, refer, hhard', hrefer', h⟩ := haggregated.reasons
    rw [h, hhard'.unique hhard (.refl _), hrefer'.unique hrefer (.refl _)]
    rfl
  have hbackwards := hreordered (youthRules ++ idleRules).reverse (List.reverse_perm _).symm
  have hkept := hdropped youthRules idleRules (.refl _) hidle
  exact ⟨houtcome, hreasons, hbackwards.2.trans hreasons, hidle, hkept.1.trans houtcome,
    hkept.2.trans hreasons⟩

end Lending
