import Lending.Proofs.Rule.Aggregate
import Lending.Proofs.Rule.Resolution

/-! Rules that a policy switches off.

An override switches a rule off by a flag or by its outcome. Either way the catalog comes out as it
was but for that one rule (`inForce_switched`), and of a rule that is switched off the same is
recorded in either way (`evaluate_off`). So an evaluation changes at that result and at what is made
of it, and nowhere else. -/
namespace Lending

/-- The two ways to switch a rule off. -/
inductive Switch where
  | flag
  | outcome

namespace Switch

/-- The override that switches off as well. -/
def set (s : Switch) (o : RuleOverride) : RuleOverride :=
  match s with
  | flag => { o with enabled := some false }
  | outcome => { o with outcome := some .disable }

/-- The overrides with that of a rule switching it off. -/
def override (s : Switch) (overrides : Dict RuleOverride) (id : String) : Dict RuleOverride :=
  overrides.insert id (s.set ((overrides.get? id).getD .empty))

/-- The rule switched off. -/
def off (s : Switch) (r : Rule) : Rule :=
  match s with
  | flag => { r with enabled := false }
  | outcome => { r with outcome := .disable }

theorem apply_set (s : Switch) (o : RuleOverride) (r : Rule) :
    (s.set o).apply r = s.off (o.apply r) := by
  cases s <;> rfl

theorem set_set (s : Switch) (o : RuleOverride) : s.set (s.set o) = s.set o := by
  cases s <;> rfl

@[simp] theorem off_id (s : Switch) (r : Rule) : (s.off r).id = r.id := by
  cases s <;> rfl

/-- However a rule is switched off, the same is recorded of it. -/
theorem evaluate_off (s : Switch) (r : Rule) (p : Applicant) :
    (s.off r).evaluate p = r.blankResult.disabled := by
  cases s with
  | flag => rfl
  | outcome =>
    have hinactive : (outcome.off r).isActive = false := Bool.and_false _
    rw [Rule.evaluate, hinactive]
    rfl

end Switch

theorem Dict.insert_insert {α : Type} (d : Dict α) (key : String) (v w : α) :
    (d.insert key v).insert key w = d.insert key w := by
  induction d with
  | nil => simp [Dict.insert]
  | cons e rest ih =>
    obtain ⟨k, u⟩ := e
    by_cases hlt : key < k
    · simp [Dict.insert, hlt]
    · by_cases heq : key = k
      · simp [Dict.insert, heq]
      · simp [Dict.insert, hlt, heq, ih]

theorem Switch.override_override (s : Switch) (overrides : Dict RuleOverride) (id : String) :
    s.override (s.override overrides id) id = s.override overrides id := by
  rw [override, override, Dict.get?_insert_self, Option.getD_some, set_set, Dict.insert_insert]

theorem Switch.sorted_override (s : Switch) {overrides : Dict RuleOverride} (h : overrides.Sorted)
    (id : String) : (s.override overrides id).Sorted :=
  h.insert id _

/-! ### The rules in force -/

namespace Catalog
variable {standard custom : List Rule} {overrides : Dict RuleOverride} {id : String}

/-- Overrides make of a rule what they made of it, switched off if it is the one. -/
theorem overridden_switched (s : Switch) (overrides : Dict RuleOverride) (id : String) (r : Rule) :
    overridden (s.override overrides id) r =
      if r.id = id then s.off (overridden overrides r) else overridden overrides r := by
  unfold overridden Switch.override
  split_ifs with hid
  · rw [hid, Dict.get?_insert_self]
    dsimp only
    rw [s.apply_set]
    cases overrides.get? id <;> rfl
  · rw [Dict.get?_insert_of_ne _ hid]

/-- **One rule in force is switched off and the others stay as they are.** -/
theorem inForce_switched (s : Switch) (overrides : Dict RuleOverride)
    (hid : id ∈ standard.map Rule.id) (hcustom : id ∉ custom.map Rule.id) :
    inForce standard (s.override overrides id) custom =
      modify (inForce standard overrides custom) id s.off := by
  have hstandard : standard.map (settled (s.override overrides id) custom) =
      modify (standard.map (settled overrides custom)) id s.off := by
    rw [modify, List.map_map]
    refine List.map_congr_left fun r _ => ?_
    rw [Function.comp_apply, id_settled, settled, settled, overridden_switched]
    split_ifs with hr
    · have hnew : r.id ∉ custom.map Rule.id := hr ▸ hcustom
      rw [replaced_of_not_mem (by rwa [Switch.off_id, id_overridden]),
        replaced_of_not_mem (by rwa [id_overridden])]
    · rfl
  have hadded : modify (custom.filter (·.id ∉ standard.map Rule.id)) id s.off =
      custom.filter (·.id ∉ standard.map Rule.id) := by
    refine (List.map_congr_left fun r hr => if_neg ?_).trans (List.map_id' _)
    have hnew := of_decide_eq_true (List.mem_filter.1 hr).2
    exact fun heq => hnew (heq ▸ hid)
  rw [inForce, inForce, hstandard, modify, modify, List.map_append]
  exact congrArg _ hadded.symm

end Catalog

/-! ### Evaluations -/

/-- What an evaluation becomes where a rule is switched off. -/
structure Evaluation.SwitchedOff (id : String) (e e' : Evaluation) : Prop where
  /-- There is a result for each rule as there was, and another one for no other rule. -/
  results : List.Forall₂ (fun r r' => r'.ruleId = r.ruleId ∧ (r.ruleId ≠ id → r' = r))
    e.results e'.results
  listed : ∃ r ∈ e'.results, r.ruleId = id
  disabled : ∀ r ∈ e'.results, r.ruleId = id → r.passed = true ∧ r.skipped = some .ruleDisabled
  reasons : e'.reasons = e.reasons.filter (· ≠ id)
  outcome : e'.outcome ≤ e.outcome
  benchmarks : e'.benchmarks = e.benchmarks.filter (·.ruleId ≠ id)

theorem Switch.not_fails_off (s : Switch) (r : Rule) (p : Applicant) : ¬ (s.off r).Fails p := by
  rw [← Rule.failed_evaluate_iff, s.evaluate_off]
  exact Bool.false_ne_true

theorem SortedIds.filter {rules : List Rule} {ids : List String} (h : SortedIds rules ids)
    (id : String) : SortedIds (rules.filter (·.id ≠ id)) (ids.filter (· ≠ id)) := by
  constructor
  · have hperm := h.perm.filter (· ≠ id)
    rwa [List.filter_map] at hperm
  · exact h.sorted.filter _

theorem RuleResult.ruleId_of_benchmark? {r : RuleResult} {b : Benchmark}
    (h : r.benchmark? = some b) : b.ruleId = r.ruleId := by
  unfold benchmark? at h
  split at h
  · cases h
  · split at h
    · cases h
      rfl
    · cases h

namespace Catalog

section
variable (s : Switch) (p : Applicant) (rules : List Rule) (id : String)

/-- The rule is dropped from those that fail. -/
theorem failingOf_modify (severity : Severity) : failingOf p severity (modify rules id s.off) =
    (failingOf p severity rules).filter (·.id ≠ id) := by
  induction rules with
  | nil => rfl
  | cons r rest ih =>
    unfold failingOf modify at ih ⊢
    rw [List.map_cons]
    by_cases hid : r.id = id
    · rw [if_pos hid, List.filter_cons_of_neg (by simp [s.not_fails_off]), ih, List.filter_cons]
      split <;> simp [hid]
    · rw [if_neg hid, List.filter_cons, List.filter_cons, ih]
      split <;> simp [hid]

theorem reasons_modify :
    (evaluateRules p (modify rules id s.off)).reasons =
      (evaluateRules p rules).reasons.filter (· ≠ id) := by
  obtain ⟨hard, refer, hhard, hrefer, hreasons⟩ := reasons_evaluateRules p rules
  obtain ⟨hard', refer', hhard', hrefer', hreasons'⟩ :=
    reasons_evaluateRules p (modify rules id s.off)
  rw [failingOf_modify] at hhard' hrefer'
  rw [hreasons, hreasons', List.filter_append, hhard'.unique (hhard.filter id) (.refl _),
    hrefer'.unique (hrefer.filter id) (.refl _)]

theorem benchmarks_modify :
    (evaluateRules p (modify rules id s.off)).benchmarks =
      (evaluateRules p rules).benchmarks.filter (·.ruleId ≠ id) := by
  show ((modify rules id s.off).map (Rule.evaluate · p)).filterMap RuleResult.benchmark? =
    ((rules.map (Rule.evaluate · p)).filterMap RuleResult.benchmark?).filter _
  rw [modify, List.map_map, List.filterMap_map, List.filterMap_map, List.filter_filterMap]
  refine List.filterMap_congr fun r _ => ?_
  show ((if r.id = id then s.off r else r).evaluate p).benchmark? =
    (r.evaluate p).benchmark?.filter (·.ruleId ≠ id)
  have hids : ∀ b, (r.evaluate p).benchmark? = some b → b.ruleId = r.id := fun b hb =>
    (RuleResult.ruleId_of_benchmark? hb).trans (r.evaluate_ruleId p)
  split_ifs with hid
  · rw [s.evaluate_off]
    refine (Option.filter_eq_none_iff.2 fun b hb => ?_).symm
    simp [hids b hb, hid]
  · cases hbenchmark : (r.evaluate p).benchmark? with
    | none => rfl
    | some b =>
      have hkept : b.ruleId ≠ id := hids b hbenchmark ▸ hid
      exact (if_pos (decide_eq_true hkept)).symm

/-- Switched off is switched off: once more, by the flag or by the outcome, makes no difference. -/
theorem evaluateRules_modify_modify (t : Switch) :
    evaluateRules p (modify (modify rules id s.off) id t.off) =
      evaluateRules p (modify rules id s.off) := by
  have hblank (r : Rule) : (s.off r).blankResult = r.blankResult := by cases s <;> rfl
  rw [modify, modify, List.map_map, evaluateRules, evaluateRules, List.map_map, List.map_map]
  refine congrArg Evaluation.ofResults (List.map_congr_left fun r _ => ?_)
  simp only [Function.comp_apply]
  split_ifs with hid htwice
  · rw [t.evaluate_off, s.evaluate_off, hblank]
  · exact absurd ((s.off_id r).trans hid) htwice
  · rfl

variable {rules id} in
/-- **Switching a rule off removes what it does and nothing else.** -/
theorem switchedOff_modify (hid : id ∈ rules.map Rule.id) :
    (evaluateRules p rules).SwitchedOff id (evaluateRules p (modify rules id s.off)) := by
  have hresults : (evaluateRules p (modify rules id s.off)).results =
      rules.map fun r => (if r.id = id then s.off r else r).evaluate p := List.map_map
  refine
    { results := ?results
      listed := ?listed
      disabled := ?disabled
      reasons := reasons_modify s p rules id
      outcome := outcome_evaluateRules_le fun severity hnone => ?outcome
      benchmarks := benchmarks_modify s p rules id }
  case results =>
    rw [hresults, results_evaluateRules, List.forall₂_map_left_iff, List.forall₂_map_right_iff,
      List.forall₂_same]
    intro r _
    split_ifs with hr
    · simp [hr]
    · exact ⟨rfl, fun _ => rfl⟩
  case listed =>
    obtain ⟨r, hr, rfl⟩ := List.mem_map.1 hid
    rw [hresults]
    exact ⟨_, List.mem_map_of_mem hr, by simp⟩
  case disabled =>
    intro result hresult hruleId
    rw [hresults] at hresult
    obtain ⟨r, _, rfl⟩ := List.mem_map.1 hresult
    split_ifs at hruleId ⊢ with hr
    · rw [s.evaluate_off]
      exact ⟨rfl, rfl⟩
    · exact absurd (r.evaluate_ruleId p ▸ hruleId) hr
  case outcome => rw [failingOf_modify, hnone, List.filter_nil]

end

variable {standard custom : List Rule} {overrides : Dict RuleOverride} {id : String}

/-- **A default rule is switched off by its override**, by the flag or by the outcome. The catalog
is resolved as before; whatever the applicant, the rule is passed over, its id goes from the
reasons and its benchmark from the benchmarks, and all else stays; and to do so twice is the same as
once. -/
theorem switching_off_removes (h : overrides.Sorted) {c : Catalog}
    (hc : resolve standard overrides custom = .ok c) (hid : id ∈ standard.map Rule.id)
    (hcustom : id ∉ custom.map Rule.id) (s : Switch) :
    ∃ c', resolve standard (s.override overrides id) custom = .ok c' ∧
      (∀ p, (evaluateRules p c.rules).SwitchedOff id (evaluateRules p c'.rules)) ∧
      resolve standard (s.override (s.override overrides id) id) custom = .ok c' ∧
      ∀ t : Switch, ∃ c'', resolve standard (t.override (s.override overrides id) id) custom =
        .ok c'' ∧ ∀ p, evaluateRules p c''.rules = evaluateRules p c'.rules := by
  obtain ⟨hstandard, hunique, rfl⟩ := (resolve_ok_iff h).1 hc
  have hoff (overrides : Dict RuleOverride) (h : overrides.Sorted) (s : Switch) :
      resolve standard (s.override overrides id) custom =
        .ok ⟨modify (inForce standard overrides custom) id s.off⟩ :=
    (resolve_ok_iff (s.sorted_override h id)).2
      ⟨hstandard, hunique, by rw [inForce_switched s overrides hid hcustom]⟩
  have hlisted : id ∈ (inForce standard overrides custom).map Rule.id := by
    rw [ids_inForce]
    exact List.mem_append_left _ hid
  refine ⟨_, hoff overrides h s, fun p => switchedOff_modify s p hlisted, ?twice, fun t => ?again⟩
  case twice => rw [s.override_override, hoff overrides h s]
  case again =>
    refine ⟨_, hoff _ (s.sorted_override h id) t, fun p => ?_⟩
    rw [inForce_switched s overrides hid hcustom]
    exact evaluateRules_modify_modify s p _ id t

/-- In the campaign a young borrower is declined for debt; without that rule there is still the age
to be looked into. -/
theorem switching_off_removes_maxDti : campaignOverrides.Sorted ∧
    ∃ c c', resolve youngBorrowers campaignOverrides campaignRules = .ok c ∧
      resolve youngBorrowers (Switch.outcome.override campaignOverrides "max_dti") campaignRules =
        .ok c' ∧
      (evaluateRules youth c.rules).SwitchedOff "max_dti" (evaluateRules youth c'.rules) ∧
      (evaluateRules youth c.rules).outcome = .autoDecline ∧
      (evaluateRules youth c'.rules).outcome = .manualReview := by
  have hsorted : campaignOverrides.Sorted := by
    unfold Dict.Sorted
    decide
  have hok := (resolve_ok_iff hsorted).2
    ⟨(by decide : (youngBorrowers.map Rule.id).Nodup),
      (by decide : (campaignRules.map Rule.id).Nodup), rfl⟩
  obtain ⟨c', hc', hoff, -, -⟩ :=
    switching_off_removes hsorted hok (by decide) (by decide : "max_dti" ∉ _) .outcome
  obtain ⟨-, -, rfl⟩ :=
    (resolve_ok_iff (Switch.outcome.sorted_override hsorted "max_dti")).1 hc'
  exact ⟨hsorted, _, _, hok, hc', hoff youth, by decide +kernel, by decide +kernel⟩

end Catalog

end Lending
