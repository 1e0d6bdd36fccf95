import Lending.Proofs.Comparison
import Lending.Proofs.Rule.Aggregate
import Mathlib.Data.List.Sort

/-! Rules that ask for less.

A threshold and a looser one both suit their operator (`Threshold.Looser`), so either comparison can
be made, and what satisfies the first satisfies the second (`Value.compare_looser`). Both ways of
combining comparisons keep to that, so a rule fails with looser thresholds only if it failed before
(`Rule.Eased.fails`); and failing rules are all that an evaluation looks at
(`noHarsher_of_eased`). -/
namespace Lending

/-! ### Thresholds -/

/-- Two thresholds that suit the operator, of which the second asks for no more. An infinite number
suits no ordering operator, and crossed bounds suit no range. -/
inductive Threshold.Looser : Operator → Threshold → Threshold → Prop
  | lower {op : Operator} {t t' : Threshold} {limit limit' : Float} (hop : op = .gte ∨ op = .gt)
      (ht : t.number? = some limit) (ht' : t'.number? = some limit') (h : limit' ≤ limit) :
      Looser op t t'
  | higher {op : Operator} {t t' : Threshold} {limit limit' : Float} (hop : op = .lte ∨ op = .lt)
      (ht : t.number? = some limit) (ht' : t'.number? = some limit') (h : limit ≤ limit') :
      Looser op t t'
  | wider {t t' : Threshold} {min max min' max' : Float} (ht : t.bounds? = some (min, max))
      (ht' : t'.bounds? = some (min', max')) (h : min ≤ max) (hmin : min' ≤ min)
      (hmax : max ≤ max') : Looser .between t t'
  | more {items items' : List Value} (h : items ⊆ items') :
      Looser .oneOf (.list items) (.list items')
  | fewer {items items' : List Value} (h : items' ⊆ items) :
      Looser .noneOf (.list items) (.list items')

/-- The threshold itself, or a looser one. -/
def Threshold.Eased (op : Operator) (t t' : Threshold) : Prop :=
  t' = t ∨ Looser op t t'

theorem any_number_mono {x : Option Float} {test test' : Float → Bool}
    (h : ∀ v, test v = true → test' v = true) : x.any test = true → x.any test' = true := by
  cases x with
  | none => exact id
  | some v => exact h v

theorem any_agrees_mono {actual : Value} {items items' : List Value} (h : items ⊆ items')
    (hany : items.any (actual.agrees ·) = true) : items'.any (actual.agrees ·) = true := by
  obtain ⟨v, hv, hagrees⟩ := List.any_eq_true.1 hany
  exact List.any_eq_true.2 ⟨v, h hv, hagrees⟩

namespace Operator
variable {op : Operator}

theorem holds_of_orders (hop : op.isOrdering = true) {t t' : Threshold} {limit limit' : Float}
    (ht : t.number? = some limit) (ht' : t'.number? = some limit')
    (h : ∀ v, op.orders v limit = true → op.orders v limit' = true) (actual : Value) :
    ∃ b b', op.holds actual t = .ok b ∧ op.holds actual t' = .ok b' ∧ (b = true → b' = true) :=
  ⟨_, _, holds_ordering hop ht actual, holds_ordering hop ht' actual, any_number_mono h⟩

/-- **What satisfies a threshold satisfies a looser one.** -/
theorem holds_looser {t t' : Threshold} (h : Threshold.Looser op t t') (actual : Value) :
    ∃ b b', op.holds actual t = .ok b ∧ op.holds actual t' = .ok b' ∧ (b = true → b' = true) := by
  cases h with
  | lower hop ht ht' h =>
    rcases hop with rfl | rfl
    · refine holds_of_orders rfl ht ht' (fun v => ?_) actual
      simpa only [orders, decide_eq_true_eq] using Number.le_trans h
    · refine holds_of_orders rfl ht ht' (fun v => ?_) actual
      simpa only [orders, decide_eq_true_eq] using Number.lt_of_le_of_lt h
  | higher hop ht ht' h =>
    rcases hop with rfl | rfl
    · refine holds_of_orders rfl ht ht' (fun v => ?_) actual
      simpa only [orders, decide_eq_true_eq] using fun hv => Number.le_trans hv h
    · refine holds_of_orders rfl ht ht' (fun v => ?_) actual
      simpa only [orders, decide_eq_true_eq] using fun hv => Number.lt_of_lt_of_le hv h
  | wider ht ht' h hmin hmax =>
    have h' := Number.le_trans hmin (Number.le_trans h hmax)
    refine ⟨_, _, holds_between ht h actual, holds_between ht' h' actual,
      any_number_mono fun v => ?_⟩
    simp only [Bool.and_eq_true, decide_eq_true_eq]
    exact fun ⟨hlow, hhigh⟩ => ⟨Number.le_trans hmin hlow, Number.le_trans hhigh hmax⟩
  | more h =>
    refine ⟨_, _, rfl, rfl, ?_⟩
    simpa only [beq_self_eq_true, beq_true] using any_agrees_mono h
  | fewer h =>
    refine ⟨_, _, rfl, rfl, ?_⟩
    show (_ == false) = true → (_ == false) = true
    simpa only [beq_false, Bool.not_eq_true', Bool.not_eq_true] using mt (any_agrees_mono h)

end Operator

theorem Value.compare_looser {op : Operator} {t t' : Threshold} (h : Threshold.Looser op t t')
    (actual : Value) : ∃ b b', actual.compare op t = .ok b ∧ actual.compare op t' = .ok b' ∧
      (b = true → b' = true) := by
  obtain ⟨b, b', hb, hb', himp⟩ := op.holds_looser h actual
  cases actual with
  | null => exact ⟨false, false, rfl, rfl, id⟩
  | flag | number | text | array | object =>
    exact ⟨b, b', (mapError_ok_iff _).2 hb, (mapError_ok_iff _).2 hb', himp⟩

theorem Value.Compares.eased {actual : Value} {op : Operator} {t t' : Threshold}
    (h : Threshold.Eased op t t') {b' : Bool} (hb' : actual.Compares op t' b') :
    ∃ b, actual.Compares op t b ∧ (b = true → b' = true) := by
  obtain ⟨hthere, hcompare⟩ := hb'
  rcases h with rfl | h
  · exact ⟨b', ⟨hthere, hcompare⟩, id⟩
  · obtain ⟨b, b'', hb, hb'', himp⟩ := actual.compare_looser h
    cases hb''.symm.trans hcompare
    exact ⟨b, ⟨hthere, hb⟩, himp⟩

/-! ### Rules -/

/-- The condition with its threshold eased. -/
structure Condition.Eased (c c' : Condition) : Prop where
  field : c'.field = c.field
  operator : c'.operator = c.operator
  threshold : Threshold.Eased c.operator c.threshold c'.threshold

/-- The comparisons with their thresholds eased. -/
inductive RuleKind.Eased : RuleKind → RuleKind → Prop
  | stored {c c' : Condition} (h : c.Eased c') : Eased (.stored c) (.stored c')
  | computed {field : ComputedField} {op : Operator} {t t' : Threshold}
      (h : Threshold.Eased op t t') : Eased (.computed field op t) (.computed field op t')
  | compound {logic : Logic} {conditions conditions' : List Condition}
      (h : List.Forall₂ Condition.Eased conditions conditions') :
      Eased (.compound logic conditions) (.compound logic conditions')

/-- The rule with thresholds of it eased, and as it was in all else. -/
structure Rule.Eased (r r' : Rule) : Prop where
  kind : r.kind.Eased r'.kind
  rest : r' = { r with kind := r'.kind }

theorem Condition.Eased.refl (c : Condition) : c.Eased c :=
  ⟨rfl, rfl, .inl rfl⟩

theorem Rule.Eased.refl (r : Rule) : r.Eased r := by
  refine ⟨?_, rfl⟩
  cases r.kind with
  | stored c => exact .stored (.refl c)
  | computed field op t => exact .computed (.inl rfl)
  | compound logic conditions => exact .compound (List.forall₂_same.2 fun c _ => .refl c)

/-- One member of a list is replaced. -/
theorem forall₂_of_one {α : Type} {R : α → α → Prop} (hrefl : ∀ a, R a a) (before after : List α)
    {a a' : α} (h : R a a') : List.Forall₂ R (before ++ a :: after) (before ++ a' :: after) :=
  List.rel_append (List.forall₂_same.2 fun a _ => hrefl a)
    (.cons h (List.forall₂_same.2 fun a _ => hrefl a))

theorem Condition.Eased.yields {c c' : Condition} (h : c.Eased c') {p : Applicant} {b' : Bool}
    (hb' : c'.Yields p b') : ∃ b, c.Yields p b ∧ (b = true → b' = true) := by
  obtain ⟨actual, hactual, hcompares⟩ := hb'
  rw [h.operator] at hcompares
  obtain ⟨b, hb, himp⟩ := hcompares.eased h.threshold
  exact ⟨b, ⟨actual, h.field ▸ hactual, hb⟩, himp⟩

/-- Both ways of combining comparisons keep to their order. -/
theorem Logic.combine_mono {outcomes outcomes' : List Bool}
    (h : List.Forall₂ (fun b b' => b = true → b' = true) outcomes outcomes') (logic : Logic) :
    logic.combine outcomes = true → logic.combine outcomes' = true := by
  induction h with
  | nil => exact id
  | @cons b b' rest rest' hb _ ih =>
    cases logic with
    | and =>
      simp only [combine, List.all_cons, Bool.and_eq_true] at ih ⊢
      exact And.imp hb ih
    | or =>
      simp only [combine, List.any_cons, Bool.or_eq_true] at ih ⊢
      exact Or.imp hb ih

theorem Condition.yields_of_eased {conditions conditions' : List Condition}
    (h : List.Forall₂ Eased conditions conditions') {p : Applicant} {outcomes' : List Bool}
    (hyields : List.Forall₂ (fun c b => c.Yields p b) conditions' outcomes') :
    ∃ outcomes, List.Forall₂ (fun c b => c.Yields p b) conditions outcomes ∧
      List.Forall₂ (fun b b' => b = true → b' = true) outcomes outcomes' := by
  induction h generalizing outcomes' with
  | nil =>
    cases hyields
    exact ⟨[], .nil, .nil⟩
  | cons hc _ ih =>
    cases hyields with
    | cons hb' hrest =>
      obtain ⟨b, hb, himp⟩ := hc.yields hb'
      obtain ⟨outcomes, houtcomes, himps⟩ := ih hrest
      exact ⟨b :: outcomes, .cons hb houtcomes, .cons himp himps⟩

theorem RuleKind.Eased.yields {k k' : RuleKind} (h : k.Eased k') {p : Applicant} {b' : Bool}
    (hb' : k'.Yields p b') : ∃ b, k.Yields p b ∧ (b = true → b' = true) := by
  cases h with
  | stored hc =>
    cases hb' with
    | stored hb' =>
      obtain ⟨b, hb, himp⟩ := hc.yields hb'
      exact ⟨b, .stored hb, himp⟩
  | computed ht =>
    cases hb' with
    | computed hb' =>
      obtain ⟨b, hb, himp⟩ := hb'.eased ht
      exact ⟨b, .computed hb, himp⟩
  | compound hconditions =>
    cases hb' with
    | compound hyields =>
      obtain ⟨outcomes, houtcomes, himps⟩ := Condition.yields_of_eased hconditions hyields
      exact ⟨_, .compound houtcomes, Logic.combine_mono himps _⟩

namespace Rule.Eased
variable {r r' : Rule}

theorem id_eq (h : r.Eased r') : r'.id = r.id := by
  rw [h.rest]

theorem severity_eq (h : r.Eased r') : r'.severity = r.severity := by
  rw [h.rest]

/-- **An eased rule fails only where the rule did.** -/
theorem fails (h : r.Eased r') {p : Applicant} (hfails : r'.Fails p) : r.Fails p := by
  obtain ⟨b, hb, himp⟩ := h.kind.yields hfails.condition
  have hactive : r'.isActive = r.isActive := by rw [h.rest]; rfl
  refine ⟨hactive ▸ hfails.active, ?_⟩
  -- Had the condition held before, it would hold now.
  rwa [Bool.eq_false_iff.2 fun htrue => Bool.false_ne_true (himp htrue)] at hb

end Rule.Eased

/-! ### Evaluations -/

/-- The second evaluation holds nothing against the applicant that the first does not. -/
structure Evaluation.NoHarsher (e e' : Evaluation) : Prop where
  outcome : e'.outcome ≤ e.outcome
  /-- Rule by rule, what fails failed before. -/
  results : List.Forall₂ (fun r r' => r'.ruleId = r.ruleId ∧ (r'.failed = true → r.failed = true))
    e.results e'.results
  reasons : e'.reasons.Sublist e.reasons

/-- Evaluations neither of which is harsher say the same. -/
theorem Evaluation.NoHarsher.antisymm {e e' : Evaluation} (h : e.NoHarsher e')
    (h' : e'.NoHarsher e) : e'.outcome = e.outcome ∧ e'.reasons = e.reasons := by
  refine ⟨?_, h.reasons.antisymm h'.reasons⟩
  have hle := h.outcome
  have hge := h'.outcome
  revert hle hge
  cases e.outcome <;> cases e'.outcome <;> decide

/-- The second rule stands in the place of the first, and it fails only where that does. -/
structure Rule.Milder (p : Applicant) (r r' : Rule) : Prop where
  id : r'.id = r.id
  severity : r'.severity = r.severity
  fails : r'.Fails p → r.Fails p

theorem Rule.Eased.milder {r r' : Rule} (h : r.Eased r') (p : Applicant) : r.Milder p r' :=
  ⟨h.id_eq, h.severity_eq, h.fails⟩

section
variable {p : Applicant} {rules rules' : List Rule} (h : List.Forall₂ (Rule.Milder p) rules rules')
include h

/-- The rules that fail are among those that failed before. -/
theorem sublist_failingOf (severity : Severity) :
    ((failingOf p severity rules').map Rule.id).Sublist
      ((failingOf p severity rules).map Rule.id) := by
  induction h with
  | nil => exact .slnil
  | @cons r r' rest rest' hr _ ih =>
    have hfailing : r'.severity = severity ∧ r'.Fails p → r.severity = severity ∧ r.Fails p :=
      fun ⟨hseverity, hfails⟩ => ⟨hr.severity ▸ hseverity, hr.fails hfails⟩
    unfold failingOf at ih ⊢
    rw [List.filter_cons, List.filter_cons]
    -- The one case that must not come up is a rule that fails now and did not fail before.
    split_ifs with hr' hr'' hr''
    · rw [List.map_cons, List.map_cons, hr.id]
      exact ih.cons_cons _
    · exact absurd (decide_eq_true (hfailing (of_decide_eq_true hr'))) hr''
    · exact ih.cons _
    · exact ih

theorem SortedIds.sublist_of_milder {severity : Severity} {ids ids' : List String}
    (hids : SortedIds (failingOf p severity rules) ids)
    (hids' : SortedIds (failingOf p severity rules') ids') : ids'.Sublist ids := by
  have hsubperm : ids'.Subperm ids :=
    (hids'.perm.subperm.trans (sublist_failingOf h severity).subperm).trans
      hids.perm.symm.subperm
  exact List.sublist_of_subperm_of_pairwise hsubperm hids'.sorted hids.sorted

theorem noHarsher_of_milder : (evaluateRules p rules).NoHarsher (evaluateRules p rules') := by
  constructor
  case outcome =>
    refine outcome_evaluateRules_le fun severity hnone => ?_
    have hsublist := sublist_failingOf h severity
    rw [hnone] at hsublist
    exact List.map_eq_nil_iff.1 (List.sublist_nil.1 hsublist)
  case results =>
    rw [results_evaluateRules, results_evaluateRules, List.forall₂_map_left_iff,
      List.forall₂_map_right_iff]
    refine h.imp fun r r' hmilder => ⟨?_, ?_⟩
    · rw [Rule.evaluate_ruleId, Rule.evaluate_ruleId, hmilder.id]
    · rw [Rule.failed_evaluate_iff, Rule.failed_evaluate_iff]
      exact hmilder.fails
  case reasons =>
    obtain ⟨hard, refer, hhard, hrefer, hreasons⟩ := reasons_evaluateRules p rules
    obtain ⟨hard', refer', hhard', hrefer', hreasons'⟩ := reasons_evaluateRules p rules'
    rw [hreasons, hreasons']
    exact (hhard.sublist_of_milder h hhard').append (hrefer.sublist_of_milder h hrefer')

end

/-- **An evaluation of eased rules is no harsher.** -/
theorem noHarsher_of_eased {rules rules' : List Rule} (h : List.Forall₂ Rule.Eased rules rules')
    (p : Applicant) : (evaluateRules p rules).NoHarsher (evaluateRules p rules') :=
  noHarsher_of_milder (h.imp fun _ _ heased => heased.milder p)

end Lending
