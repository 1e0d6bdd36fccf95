import Lending.Proofs.Policy.Members
import Lending.Proofs.Rule.Aggregate
import Lending.Proofs.Rule.Resolution

/-! Rules that a policy turns into referrals.

A failing rule counts with its severity. The document of a rule that refers gives it the severity
to go with that, unless it names one of its own (`ReferralDocument.severity_eq`). An override leaves
the severity as it is, also with the outcome `refer`, so a hard rule goes on declining
(`referral_agrees_iff`). -/
namespace Lending

/-- What a failing rule of this severity makes of an application on its own. -/
def Severity.aggregate : Severity → Aggregate
  | .hard => .autoDecline
  | .refer => .manualReview

/-- The document is read as the rule among the custom rules of a policy, it refers, and it names no
severity. -/
structure ReferralDocument (d : Document) (r : Rule) : Prop where
  read : ((Rule.read d).outcome.map fun r => { r with isCustom := true }) = .ok r
  refers : d.optionalWord RuleOutcome.read "outcome" = .ok (some .refer)
  unnamed : d.optionalText "severity" = none

/-- A rule that refers without a severity of its own is a refer rule. -/
theorem ReferralDocument.severity_eq {d : Document} {r : Rule} (h : ReferralDocument d r) :
    r.outcome = .refer ∧ r.severity = .refer := by
  have hnone : d.optionalWord Severity.read "severity" = .ok none := by
    rw [Document.optionalWord, h.unnamed]
  obtain ⟨written, hread, rfl⟩ := map_ok_iff.1 h.read
  obtain ⟨-, outcome, severity, houtcome, hseverity, hwritten⟩ := Rule.parts_of_read hread
  cases h.refers.symm.trans houtcome
  cases hnone.symm.trans hseverity
  exact ⟨hwritten.2, hwritten.1⟩

/-! ### A rule that fails alone -/

/-- Rules that check the same, under one id. -/
structure Rule.ChecksAs (r r' : Rule) : Prop where
  id : r.id = r'.id
  kind : r.kind = r'.kind
  active : r.isActive = r'.isActive

theorem Rule.ChecksAs.fails_iff {r r' : Rule} (h : r.ChecksAs r') (p : Applicant) :
    r.Fails p ↔ r'.Fails p := by
  constructor
  · rintro ⟨hactive, hcondition⟩
    exact ⟨h.active ▸ hactive, h.kind ▸ hcondition⟩
  · rintro ⟨hactive, hcondition⟩
    exact ⟨h.active ▸ hactive, h.kind ▸ hcondition⟩

/-- The rule fails, and no rule of another id does. -/
structure FailsAlone (p : Applicant) (rules : List Rule) (r : Rule) : Prop where
  mem : r ∈ rules
  fails : r.Fails p
  alone : ∀ x ∈ rules, x.id ≠ r.id → ¬ x.Fails p

theorem FailsAlone.outcome_eq {p : Applicant} {rules : List Rule} {r : Rule}
    (h : FailsAlone p rules r) (hunique : (rules.map Rule.id).Nodup) :
    (evaluateRules p rules).outcome = r.severity.aggregate := by
  have A := aggregated_evaluateRules p rules
  have hsole : ∀ x ∈ rules, x.Fails p → x = r := fun x hx hfails =>
    List.inj_on_of_nodup_map hunique hx h.mem (Classical.byContradiction fun hid =>
      h.alone x hx hid hfails)
  cases hseverity : r.severity with
  | hard => exact A.declines.2 ⟨r, h.mem, hseverity, h.fails⟩
  | refer =>
    refine A.reviews.2 ⟨fun x hx hhard hfails => ?_, r, h.mem, hseverity, h.fails⟩
    rw [hsole x hx hfails, hseverity] at hhard
    cases hhard

namespace Catalog
variable {standard custom : List Rule} {d r : Rule} {o : RuleOverride} {p : Applicant}

/-! ### The two ways -/

theorem apply_mem_inForce (hd : d ∈ standard) (hcustom : d.id ∉ custom.map Rule.id) :
    o.apply d ∈ inForce standard [(d.id, o)] custom := by
  refine List.mem_append_left _ (List.mem_map.2 ⟨d, hd, ?_⟩)
  rw [settled, replaced_of_not_mem (by rwa [id_overridden]), overridden, Dict.get?_cons, if_pos rfl]

/-- A custom rule for one more id leaves the others as they are. -/
theorem mem_inForce_of_ne {x : Rule} (hx : x ∈ inForce standard [] (r :: custom))
    (hne : x.id ≠ r.id) : x ∈ inForce standard [(r.id, o)] custom := by
  rcases List.mem_append.1 hx with hx | hx
  · obtain ⟨y, hy, rfl⟩ := List.mem_map.1 hx
    rw [id_settled] at hne
    refine List.mem_append_left _ (List.mem_map.2 ⟨y, hy, ?_⟩)
    have hsame : overridden [(r.id, o)] y = overridden [] y := by
      rw [overridden, overridden, Dict.get?_cons, if_neg (Ne.symm hne)]
    rw [settled, settled, hsame, replaced_cons, id_overridden, if_neg hne]
  · obtain ⟨hmem, hnew⟩ := List.mem_filter.1 hx
    rcases List.mem_cons.1 hmem with rfl | hmem
    · exact absurd rfl hne
    · exact List.mem_append_right _ (List.mem_filter.2 ⟨hmem, hnew⟩)

theorem mem_inForce_cons (hid : r.id ∈ standard.map Rule.id) :
    r ∈ inForce standard [] (r :: custom) := by
  obtain ⟨y, hy, hid⟩ := List.mem_map.1 hid
  refine List.mem_append_left _ (List.mem_map.2 ⟨y, hy, ?_⟩)
  rw [settled, replaced_cons, id_overridden, if_pos hid]

/-- **An override takes effect as the document of a referral does** exactly if the overridden rule
is a refer rule, by the severity of the override or, where that has none, by its own. Whatever
outcome the override gives, a hard rule goes on declining. -/
theorem referral_agrees_iff (hd : d ∈ standard) (hcustom : d.id ∉ custom.map Rule.id)
    {c : Catalog} (hc : resolve standard [(d.id, o)] custom = .ok c)
    (hfails : FailsAlone p c.rules (o.apply d)) {document : Document}
    (hdocument : ReferralDocument document r) (hsame : r.ChecksAs (o.apply d)) :
    (evaluateRules p c.rules).outcome = (o.severity.getD d.severity).aggregate ∧
      ∃ c', resolve standard [] (r :: custom) = .ok c' ∧
        (evaluateRules p c'.rules).outcome = .manualReview ∧
        ((evaluateRules p c.rules).outcome = (evaluateRules p c'.rules).outcome ↔
          o.severity.getD d.severity = .refer) := by
  have hsorted : Dict.Sorted [(d.id, o)] := List.pairwise_singleton _ _
  obtain ⟨hstandard, hunique, rfl⟩ := (resolve_ok_iff hsorted).1 hc
  have hid : r.id = d.id := hsame.id
  have hunique' : ((r :: custom).map Rule.id).Nodup :=
    List.nodup_cons.2 ⟨hid ▸ hcustom, hunique⟩
  -- The catalogs share the rules of other ids, and of those none fails.
  have hfails' : FailsAlone p (inForce standard [] (r :: custom)) r := by
    refine ⟨mem_inForce_cons (hid ▸ List.mem_map_of_mem hd), (hsame.fails_iff p).2 hfails.fails,
      fun x hx hne => ?_⟩
    have hmem : x ∈ inForce standard [(r.id, o)] custom := mem_inForce_of_ne hx hne
    rw [hid] at hmem hne
    exact hfails.alone x hmem hne
  have houtcome := hfails.outcome_eq (nodup_inForce hstandard hunique [(d.id, o)])
  have houtcome' := hfails'.outcome_eq (nodup_inForce hstandard hunique' [])
  rw [hdocument.severity_eq.2] at houtcome'
  refine ⟨houtcome, _, (resolve_ok_iff List.Pairwise.nil).2 ⟨hstandard, hunique', rfl⟩, houtcome',
    ?_⟩
  show (evaluateRules p (inForce standard [(d.id, o)] custom)).outcome =
    (evaluateRules p (inForce standard [] (r :: custom))).outcome ↔ _
  rw [houtcome, houtcome']
  show (o.severity.getD d.severity).aggregate = _ ↔ _
  cases o.severity.getD d.severity <;> decide

/-! ### A referral by override -/

def minScore : Rule :=
  .stored "min_credit_score" "Minimum credit score" "credit_score" .gte (.number 580) .hard

def referOverride : RuleOverride :=
  { RuleOverride.empty with outcome := some .refer }

/-- The same rule as a document. -/
def minScoreReferral : Document :=
  .record [("id", .text "min_credit_score"), ("field", .text "credit_score"),
    ("operator", .text "gte"), ("threshold", .real 580), ("outcome", .text "refer")]

def lowScore : Applicant :=
  (Record.empty : Applicant).put .creditScore (some (500 : Float))

theorem resolve_minScore (o : RuleOverride) : resolve standardRules [(minScore.id, o)] [] =
    .ok ⟨inForce standardRules [(minScore.id, o)] []⟩ :=
  (resolve_ok_iff (List.pairwise_singleton _ _)).2
    ⟨(by decide : (standardRules.map Rule.id).Nodup), .nil, rfl⟩

theorem minScore_mem : minScore ∈ standardRules :=
  List.mem_cons_self ..

/-- With a severity in it the override refers, as the document does. -/
theorem referral_agrees_iff_minScore : ∃ o : RuleOverride, o.outcome = some .refer ∧
    ∃ c c' r, resolve standardRules [(minScore.id, o)] [] = .ok c ∧
      FailsAlone lowScore c.rules (o.apply minScore) ∧ ReferralDocument minScoreReferral r ∧
      resolve standardRules [] [r] = .ok c' ∧
      (evaluateRules lowScore c.rules).outcome = (evaluateRules lowScore c'.rules).outcome := by
  let o := { referOverride with severity := some .refer }
  have hfails : FailsAlone lowScore (inForce standardRules [(minScore.id, o)] [])
      (o.apply minScore) :=
    ⟨apply_mem_inForce minScore_mem List.not_mem_nil, by decide +kernel, by decide +kernel⟩
  obtain ⟨r, hr, hsame⟩ : ∃ r, ReferralDocument minScoreReferral r ∧
      r.ChecksAs (o.apply minScore) :=
    ⟨_, ⟨rfl, rfl, rfl⟩, rfl, rfl, rfl⟩
  obtain ⟨-, c', hc', -, hiff⟩ :=
    referral_agrees_iff minScore_mem List.not_mem_nil (resolve_minScore o) hfails hr hsame
  exact ⟨o, rfl, _, c', r, resolve_minScore o, hfails, hr, hc', hiff.2 rfl⟩

/-- The override alone does not turn a hard rule into a referral: it goes on declining. -/
theorem referral_declines : minScore ∈ standardRules ∧ minScore.severity = .hard ∧
    referOverride.outcome = some .refer ∧ referOverride.severity = none ∧
    ∃ c, resolve standardRules [(minScore.id, referOverride)] [] = .ok c ∧
      FailsAlone lowScore c.rules (referOverride.apply minScore) ∧
      (evaluateRules lowScore c.rules).outcome = .autoDecline :=
  ⟨minScore_mem, rfl, rfl, rfl, _, resolve_minScore referOverride,
    ⟨apply_mem_inForce minScore_mem List.not_mem_nil, by decide +kernel, by decide +kernel⟩,
    by decide +kernel⟩

end Catalog

end Lending
