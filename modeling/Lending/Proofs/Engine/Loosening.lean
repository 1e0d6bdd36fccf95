import Lending.Proofs.Engine.Impact
import Lending.Proofs.Rule.Loosening

/-! Impact analyses of policies that ask for less.

Where all strategies are sequential a decision is what one list of rules comes to, and which list
that is depends on the route alone. A configuration with looser thresholds sends every application
where it went before, and the rules there are no harsher, so it declines nobody who was not declined
before. -/
namespace Lending

/-- Only a decline is as severe as a decline. -/
theorem Aggregate.declines_of_le {a a' : Aggregate} (h : a' ≤ a)
    (hdecline : a'.decision = .decline) : a.decision = .decline := by
  cases a' with
  | autoApprove | manualReview => cases hdecline
  | autoDecline =>
    cases a with
    | autoApprove | manualReview => exact absurd h (by decide)
    | autoDecline => rfl

namespace Configuration
variable {c c' : Configuration}

/-- All strategies decide by the catalog alone. -/
def Sequential (c : Configuration) : Prop :=
  ∀ id s, c.strategy? id = some s → s.mode = .sequential

/-- Sequential configurations of one tree, of which the second has thresholds of the first eased. -/
structure Eased (c c' : Configuration) : Prop where
  sequential : c.Sequential
  sequential' : c'.Sequential
  tree : c'.tree = c.tree
  catalog : List.Forall₂ Rule.Eased c.catalog.rules c'.catalog.rules
  assessments : ∀ id a a', c.assessment? id = some a → c'.assessment? id = some a' →
    List.Forall₂ Rule.Eased a.rules a'.rules

/-- The configuration with other rules in its catalog. -/
def withRules (c : Configuration) (rules : List Rule) : Configuration :=
  { c with catalog := ⟨rules⟩ }

/-- It is enough to ease the rules of the catalog. -/
theorem Sequential.eased (h : c.Sequential) {rules rules' : List Rule}
    (hrules : List.Forall₂ Rule.Eased rules rules') :
    (c.withRules rules).Eased (c.withRules rules') where
  sequential := h
  sequential' := h
  tree := rfl
  catalog := hrules
  assessments := by
    intro id a a' ha ha'
    cases ha.symm.trans ha'
    exact List.forall₂_same.2 fun r _ => .refl r

/-! ### Decisions -/

theorem Sequential.execute_strategy (h : c.Sequential) {card : Scorecard} {p : Applicant}
    {params : Dict Value} {id : String} {o : Outcome}
    (ho : c.execute card p params (.strategy id) = .ok o) :
    o.decision = (evaluateRules p c.catalog.rules).decision := by
  rw [execute] at ho
  split at ho
  · next s hs =>
    obtain ⟨_, ho⟩ := then_ok_iff.1 ho
    cases ho
    show (s.verdict c.catalog card p).decision = _
    rw [Strategy.verdict, h id s hs]
    rfl
  · cases ho

theorem execute_assessment {card : Scorecard} {p : Applicant} {params : Dict Value} {id : String}
    {o : Outcome} (ho : c.execute card p params (.assessment id) = .ok o) :
    ∃ a, c.assessment? id = some a ∧ o.decision = (evaluateRules p a.rules).decision := by
  rw [execute] at ho
  split at ho
  · next a ha =>
    obtain ⟨_, ho⟩ := then_ok_iff.1 ho
    cases ho
    exact ⟨a, ha, rfl⟩
  · cases ho

/-- A decision is what is executed where its route ends. -/
theorem decide_executes {card : Scorecard} {p : Applicant} {ctx : Context}
    {allotment : Option Allotment} {d : Decided} (h : c.decide card p ctx allotment = .ok d) :
    ∃ routing target, c.tree.route ctx = .ok routing ∧ routing.target? = some target ∧
      c.execute card p routing.params (allot allotment target).1 = .ok d.outcome := by
  obtain ⟨routing, hrouting, hfinish⟩ := bind_ok_iff.1 h
  unfold finish at hfinish
  split at hfinish
  · cases hfinish
  · next target htarget =>
    obtain ⟨o, ho, hd⟩ := bind_ok_iff.1 hfinish
    cases hd
    exact ⟨routing, target, (mapError_ok_iff _).1 hrouting, htarget, (mapError_ok_iff _).1 ho⟩

namespace Eased
variable (h : c.Eased c') {card : Scorecard} {p : Applicant}
include h

theorem execute_declines {params : Dict Value} {target : Target} {o o' : Outcome}
    (ho : c.execute card p params target = .ok o) (ho' : c'.execute card p params target = .ok o')
    (hdecline : o'.decision = .decline) : o.decision = .decline := by
  cases target with
  | strategy id =>
    rw [h.sequential'.execute_strategy ho'] at hdecline
    rw [h.sequential.execute_strategy ho]
    exact Aggregate.declines_of_le (noHarsher_of_eased h.catalog p).outcome hdecline
  | assessment id =>
    obtain ⟨a, ha, hdecision⟩ := execute_assessment ho
    obtain ⟨a', ha', hdecision'⟩ := execute_assessment ho'
    rw [hdecision'] at hdecline
    rw [hdecision]
    have heased := h.assessments id a a' ha ha'
    exact Aggregate.declines_of_le (noHarsher_of_eased heased p).outcome hdecline

/-- **Whom an eased configuration declines was declined before.** -/
theorem decide_declines {ctx : Context} {allotment : Option Allotment} {d d' : Decided}
    (hd : c.decide card p ctx allotment = .ok d) (hd' : c'.decide card p ctx allotment = .ok d')
    (hdecline : d'.outcome.decision = .decline) : d.outcome.decision = .decline := by
  obtain ⟨routing, target, hrouting, htarget, ho⟩ := decide_executes hd
  obtain ⟨routing', target', hrouting', htarget', ho'⟩ := decide_executes hd'
  rw [h.tree] at hrouting'
  cases hrouting.symm.trans hrouting'
  cases htarget.symm.trans htarget'
  exact h.execute_declines ho ho' hdecline

end Eased

end Configuration

/-! ### Batches -/

namespace Simulation
open Lending.Configuration

/-- No change that is listed is a decline. -/
theorem change?_eased {c c' : Configuration} (h : c.Eased c') (s : Simulation) (a : Application)
    {ch : ImpactChange} (hch : (s.compare c c' a).change? = some ch) : ch.new ≠ .decline := by
  obtain ⟨d, d', hd, hd', hold, hnew, hne, _⟩ := Compared.change?_some hch
  intro hdecline
  have hdeclined : ch.old = .decline :=
    hold.trans (h.decide_declines hd hd' (hnew.symm.trans hdecline))
  exact hne (hdeclined.trans hdecline.symm)

theorem newlyDeclined_eased {c c' : Configuration} (h : c.Eased c') (s : Simulation)
    (batch : List Application) : (impactReport (batch.map (s.compare c c'))).newlyDeclined = 0 := by
  have hcounts := ImpactCounters.counts_run (batch.map (s.compare c c'))
  refine (hcounts.newly .decline).trans (List.countP_eq_zero.2 fun ch hch => ?_)
  rw [hcounts.changes] at hch
  obtain ⟨row, hrow, hchange⟩ := List.mem_filterMap.1 hch
  obtain ⟨a, _, rfl⟩ := List.mem_map.1 hrow
  simpa using change?_eased h s a hchange

/-- **Looser thresholds spare the applicants.** Whatever the rules and the applicant, the outcome
is no more severe, and what fails or is given as a reason was so before. An impact analysis of two
sequential configurations that differ in this way reports no new decline, whatever the batch. -/
theorem loosening_spares :
    (∀ (rules rules' : List Rule), List.Forall₂ Rule.Eased rules rules' → ∀ p,
      (evaluateRules p rules).NoHarsher (evaluateRules p rules')) ∧
    ∀ (s : Simulation) (c c' : Configuration), c.Eased c' → ∀ batch : List Application,
      batch.length ≤ s.options.maxSize.toNat →
        ∃ i, s.impact c c' batch = .ok i ∧ i.newlyDeclined = 0 := by
  refine ⟨fun rules rules' h => noHarsher_of_eased h, ?impact⟩
  case impact =>
    intro s c c' h batch hsize
    have himpact : s.impact c c' batch = .ok (impactReport (batch.map (s.compare c c'))) :=
      then_ok_iff.2 ⟨checkSize_ok hsize, rfl⟩
    exact ⟨_, himpact, newlyDeclined_eased h s batch⟩

/-- A score that is good enough, or a good income. -/
def standing (score : Float) : Rule :=
  .ofKind "standing" "Score or income" (.compound .or
    [⟨"credit_score", .gte, .number score⟩, ⟨"monthly_income", .gte, .number 5000⟩]) .hard

/-- The small configuration with both strategies going by the catalog. -/
def catalogConfiguration : Configuration :=
  { lendingConfiguration with
    strategies := [("repeat_v2", .ofMode "repeat_v2" .sequential),
      ("standard_v1", .ofMode "standard_v1" .sequential)] }

theorem eased_standing : (standing 640).Eased (standing 580) := by
  have hscore : Threshold.Looser .gte (.number 640) (.number 580) :=
    .lower (.inl rfl) (Threshold.number?_number (by decide +kernel))
      (Threshold.number?_number (by decide +kernel)) (by decide +kernel)
  exact ⟨.compound (forall₂_of_one .refl [] _ ⟨rfl, rfl, .inr hscore⟩), rfl⟩

theorem sequential_catalogConfiguration : catalogConfiguration.Sequential := by
  intro id s hs
  simp only [strategy?, catalogConfiguration, Dict.get?] at hs
  split_ifs at hs <;> cases hs <;> rfl

/-- A middling score and a middling income. -/
def middling : Applicant :=
  ((Record.empty : Applicant).put .creditScore (some (600 : Float))).put .monthlyIncome
    (some (2000 : Float))

/-- The standard rules, and a standing with the score. -/
def standingRules (score : Float) : List Rule :=
  Catalog.standardRules ++ [standing score]

/-- Where a lower score will do, the applicant is approved who was declined. -/
theorem loosening_spares_middling :
    (evaluateRules middling (standingRules 640)).NoHarsher
      (evaluateRules middling (standingRules 580)) ∧
    ∃ i, lendingEngine.simulation.impact (catalogConfiguration.withRules (standingRules 640))
        (catalogConfiguration.withRules (standingRules 580))
        [{ lendingApplication with applicant := middling }] = .ok i ∧
      i.newlyDeclined = 0 ∧ i.newlyApproved = 1 := by
  have heased : List.Forall₂ Rule.Eased (standingRules 640) (standingRules 580) :=
    forall₂_of_one .refl Catalog.standardRules [] eased_standing
  obtain ⟨hrules, himpact⟩ := loosening_spares
  obtain ⟨i, hi, hdeclined⟩ := himpact lendingEngine.simulation _ _
    (sequential_catalogConfiguration.eased heased)
    [{ lendingApplication with applicant := middling }] (by decide)
  refine ⟨hrules _ _ heased middling, i, hi, hdeclined, ?_⟩
  cases hi
  decide +kernel

/-- An infinite limit suits no ordering operator, so the rule that has it is skipped. A finite limit
is lower, and with it the rule is evaluated and fails. -/
theorem finite_limit_declines : (640 : Float).isFinite = true ∧ (640 : Float) < 1 / 0 ∧
    catalogConfiguration.Sequential ∧
    (evaluateRules middling (standingRules (1 / 0))).outcome = .autoApprove ∧
    (evaluateRules middling (standingRules 640)).outcome = .autoDecline ∧
    ∃ i, lendingEngine.simulation.impact (catalogConfiguration.withRules (standingRules (1 / 0)))
        (catalogConfiguration.withRules (standingRules 640))
        [{ lendingApplication with applicant := middling }] = .ok i ∧
      i.newlyDeclined = 1 := by
  refine ⟨by decide +kernel, by decide +kernel, sequential_catalogConfiguration, by decide +kernel,
    by decide +kernel, _, then_ok_iff.2 ⟨checkSize_ok (by decide), rfl⟩, ?_⟩
  decide +kernel

end Simulation

end Lending
