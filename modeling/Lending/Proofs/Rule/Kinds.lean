import Lending.Proofs.Policy.Members
import Lending.Proofs.Record
import Lending.Proofs.Rule.Compound
import Lending.Proofs.Rule.Loosening

/-! Rules of different kinds that check the same.

One comparison can be written as a rule of any kind. A rule that names a computed attribute and one
that holds the attribute itself have the same result (`Rule.Alike.evaluate_eq`). With blanks around
the name, or as the only one of several conditions, a comparison is reported in other words, but it
is passed, failed or skipped as it would be without (`RuleResult.SameVerdict`). Reading a document
turns the name of a computed attribute into the attribute, and no verdict changes by that. -/
namespace Lending

/-! ### Computed attributes by name -/

theorem ComputedField.ofName?_eq_some_iff {name : String} {field : ComputedField} :
    ofName? name = some field ↔ field.name = Text.trim name := by
  have hname : (Attribute.computed field : RuleField).name = Text.trim name ↔
      field.name = Text.trim name := Iff.rfl
  rw [← hname, ← Attribute.ofName?_eq_some_iff, ofName?]
  split
  · next c hc => rw [hc, Option.some.injEq, Option.some.injEq, Attribute.computed.injEq]
  · next hnot => exact ⟨nofun, fun h => absurd h (hnot field)⟩

theorem ComputedField.ofName?_name (field : ComputedField) : ofName? field.name = some field := by
  cases field <;> rfl

theorem Applicant.lookup_computed (p : Applicant) {name : String} {field : ComputedField}
    (h : ComputedField.ofName? name = some field) :
    p.lookup name = some (p.value (.computed field)) := by
  have hname : (Attribute.computed field : RuleField).name = Text.trim name :=
    ComputedField.ofName?_eq_some_iff.1 h
  rw [Record.lookup, Attribute.ofName?_eq_some_iff.2 hname]
  rfl

/-! ### Verdicts -/

namespace RuleResult
variable {r r' : RuleResult}

/-- The results differ at most in their wording. -/
structure SameVerdict (r r' : RuleResult) : Prop where
  passed : r'.passed = r.passed
  skipped : r'.skipped = r.skipped

theorem SameVerdict.failed_eq (h : r.SameVerdict r') : r'.failed = r.failed := by
  rw [failed, failed, h.passed, h.skipped]

/-- What is compared settles the verdict, and not what it is called. -/
theorem SameVerdict.single (h : r.SameVerdict r') (field field' : String) (actual : Option Value)
    (op : Operator) (t : Threshold) :
    (r.single field actual op t).SameVerdict (r'.single field' actual op t) := by
  unfold RuleResult.single
  cases actual with
  | none => exact ⟨h.passed, rfl⟩
  | some v =>
    cases hmissing : v.isMissing with
    | true =>
      simp only [hmissing, if_true]
      exact ⟨h.passed, rfl⟩
    | false =>
      simp only [hmissing, Bool.false_eq_true, if_false]
      unfold compared
      cases v.compare op t with
      | ok b => exact ⟨rfl, h.skipped⟩
      | error m => exact ⟨h.passed, rfl⟩

theorem follows_single (hpassed : r.passed = true) (hskipped : r.skipped = none) (c : Condition)
    (p : Applicant) :
    (r.single c.field (p.lookup c.field) c.operator c.threshold).Follows (c.evaluate p) := by
  unfold RuleResult.single Condition.evaluate
  cases p.lookup c.field with
  | none => exact .stopped hpassed rfl rfl
  | some v =>
    cases hmissing : v.isMissing with
    | true =>
      simp only [hmissing, if_true]
      exact .stopped hpassed rfl rfl
    | false =>
      simp only [hmissing, Bool.false_eq_true, if_false]
      unfold compared
      cases v.compare c.operator c.threshold with
      | ok b => exact .settled rfl hskipped
      | error m => exact .stopped hpassed rfl rfl

/-- Two results of the same evaluation are skipped in the same words. -/
theorem Follows.agree {x : Except Condition.Obstacle Bool} (h : r.Follows x) (h' : r'.Follows x) :
    r.SameVerdict r' ∧ (r.isSkipped = true → r'.message = r.message) := by
  cases h with
  | settled hpassed hskipped =>
    cases h' with
    | settled hpassed' hskipped' =>
      refine ⟨⟨hpassed'.trans hpassed.symm, hskipped'.trans hskipped.symm⟩, fun hskip => ?_⟩
      rw [isSkipped, hskipped] at hskip
      cases hskip
  | stopped hpassed hskipped hmessage =>
    cases h' with
    | stopped hpassed' hskipped' hmessage' =>
      exact ⟨⟨hpassed'.trans hpassed.symm, hskipped'.trans hskipped.symm⟩,
        fun _ => hmessage'.trans hmessage.symm⟩

end RuleResult

/-! ### Rules -/

namespace Rule
variable {r r' : Rule} {c : Condition} {p : Applicant}

/-- The rules differ at most in what they check. -/
structure Alike (r r' : Rule) : Prop where
  id : r'.id = r.id
  name : r'.name = r.name
  severity : r'.severity = r.severity
  isCustom : r'.isCustom = r.isCustom
  isActive : r'.isActive = r.isActive

theorem evaluate_inactive (h : r.isActive = false) (p : Applicant) :
    r.evaluate p = r.blankResult.disabled := by
  rw [evaluate, h]
  rfl

theorem evaluate_stored (hactive : r.isActive = true) (hkind : r.kind = .stored c)
    (p : Applicant) : r.evaluate p =
      r.blankResult.single c.field (p.lookup c.field) c.operator c.threshold := by
  rw [evaluate, hactive, hkind]
  rfl

theorem evaluate_computed {field : ComputedField} {op : Operator} {t : Threshold}
    (hactive : r.isActive = true) (hkind : r.kind = .computed field op t) (p : Applicant) :
    r.evaluate p = r.blankResult.single field.name (some (p.value (.computed field))) op t := by
  rw [evaluate, hactive, hkind]
  rfl

theorem Alike.evaluate_eq (h : r.Alike r') {field : ComputedField} {op : Operator} {t : Threshold}
    (hkind : r.kind = .computed field op t) (hkind' : r'.kind = .stored ⟨field.name, op, t⟩)
    (p : Applicant) : r'.evaluate p = r.evaluate p := by
  have hfields : r'.fields = r.fields := by rw [fields, fields, hkind, hkind']
  have hblank : r'.blankResult = r.blankResult := by
    rw [blankResult, blankResult, h.id, h.name, h.severity, h.isCustom, hfields]
  cases hactive : r.isActive with
  | false => rw [evaluate_inactive hactive, evaluate_inactive (h.isActive.trans hactive), hblank]
  | true =>
    rw [evaluate_computed hactive hkind, evaluate_stored (h.isActive.trans hactive) hkind', hblank,
      p.lookup_computed field.ofName?_name]

/-- Both ways of joining leave a single outcome as it is. -/
theorem evaluateAll_singleton (logic : Logic) (c : Condition) (p : Applicant) :
    ([c].mapM (Condition.evaluate · p)).map logic.combine = c.evaluate p := by
  rw [List.mapM_cons, List.mapM_nil]
  cases c.evaluate p with
  | error o => rfl
  | ok b => cases logic <;> cases b <;> rfl

theorem Alike.agree_of_single (h : r.Alike r') {logic : Logic}
    (hkind : r.kind = .compound logic [c]) (hkind' : r'.kind = .stored c) (p : Applicant) :
    (r.evaluate p).SameVerdict (r'.evaluate p) ∧
      ((r.evaluate p).isSkipped = true → (r'.evaluate p).message = (r.evaluate p).message) := by
  cases hactive : r.isActive with
  | false =>
    rw [evaluate_inactive hactive, evaluate_inactive (h.isActive.trans hactive)]
    exact ⟨⟨rfl, rfl⟩, fun _ => rfl⟩
  | true =>
    have hfollows := follows_compound hactive hkind p
    rw [evaluateAll_singleton] at hfollows
    refine hfollows.agree ?_
    rw [evaluate_stored (h.isActive.trans hactive) hkind']
    exact RuleResult.follows_single rfl rfl c p

/-- What a condition is read as is compared as the condition would be. -/
theorem Alike.sameVerdict_of_read (h : r.Alike r') (hkind : r.kind = .ofCondition c)
    (hkind' : r'.kind = .stored c) (p : Applicant) :
    (r.evaluate p).SameVerdict (r'.evaluate p) := by
  have hblank : r.blankResult.SameVerdict r'.blankResult := ⟨rfl, rfl⟩
  cases hactive : r.isActive with
  | false =>
    rw [evaluate_inactive hactive, evaluate_inactive (h.isActive.trans hactive)]
    exact ⟨rfl, rfl⟩
  | true =>
    rw [evaluate_stored (h.isActive.trans hactive) hkind']
    unfold RuleKind.ofCondition at hkind
    cases hname : ComputedField.ofName? c.field with
    | none =>
      rw [hname] at hkind
      rw [evaluate_stored hactive hkind]
      exact hblank.single ..
    | some field =>
      rw [hname] at hkind
      rw [evaluate_computed hactive hkind, p.lookup_computed hname]
      exact hblank.single ..

/-! ### Documents -/

theorem condition_of_read {d : Document} (h : (Rule.read d).outcome = .ok r)
    (hflat : d.get? "conditions" = none) :
    ∃ c, Condition.read d = .ok c ∧ r.kind = .ofCondition c := by
  have hkind := (parts_of_read h).1
  rw [RuleKind.read, hflat] at hkind
  obtain ⟨c, hc, hkind⟩ := map_ok_iff.1 hkind
  exact ⟨c, hc, hkind.symm⟩

/-- Rules of one verdict can stand for each other in any list. -/
theorem evaluateRules_of_sameVerdict (hid : r'.id = r.id) (hseverity : r'.severity = r.severity)
    (h : (r.evaluate p).SameVerdict (r'.evaluate p)) (before after : List Rule) :
    (evaluateRules p (before ++ r' :: after)).outcome =
        (evaluateRules p (before ++ r :: after)).outcome ∧
      (evaluateRules p (before ++ r' :: after)).reasons =
        (evaluateRules p (before ++ r :: after)).reasons := by
  have hfails : r'.Fails p ↔ r.Fails p := by
    rw [← failed_evaluate_iff, ← failed_evaluate_iff, h.failed_eq]
  have hrefl (x : Rule) : x.Milder p x := ⟨rfl, rfl, fun hfails => hfails⟩
  -- Neither of the two evaluations is harsher than the other.
  refine (noHarsher_of_milder (forall₂_of_one hrefl before after ?_)).antisymm
    (noHarsher_of_milder (forall₂_of_one hrefl before after ?_))
  · exact ⟨hid, hseverity, hfails.1⟩
  · exact ⟨hid.symm, hseverity.symm, hfails.2⟩

/-- **The kinds of rules agree where they overlap.** A computed attribute and its name make the same
result. A condition and the rule of that one condition make the same verdict and, where they are
skipped, the same message. What reading makes of a condition on a computed attribute, however its
name is padded, makes the verdict of the condition, alone and in any list of rules. -/
theorem kinds_agree (p : Applicant) :
    (∀ (r r' : Rule) (field : ComputedField) (op : Operator) (t : Threshold), r.Alike r' →
      r.kind = .computed field op t → r'.kind = .stored ⟨field.name, op, t⟩ →
      r'.evaluate p = r.evaluate p) ∧
    (∀ (r r' : Rule) (logic : Logic) (c : Condition), r.Alike r' →
      r.kind = .compound logic [c] → r'.kind = .stored c →
      (r.evaluate p).SameVerdict (r'.evaluate p) ∧
        ((r.evaluate p).isSkipped = true → (r'.evaluate p).message = (r.evaluate p).message)) ∧
    ∀ (d : Document) (r : Rule), (Rule.read d).outcome = .ok r → d.get? "conditions" = none →
      ∃ c, Condition.read d = .ok c ∧ r.kind = .ofCondition c ∧
        ∀ r' : Rule, r.Alike r' → r'.kind = .stored c →
          (r.evaluate p).SameVerdict (r'.evaluate p) ∧ ∀ before after : List Rule,
            (evaluateRules p (before ++ r' :: after)).outcome =
                (evaluateRules p (before ++ r :: after)).outcome ∧
              (evaluateRules p (before ++ r' :: after)).reasons =
                (evaluateRules p (before ++ r :: after)).reasons := by
  refine ⟨fun r r' field op t h hkind hkind' => h.evaluate_eq hkind hkind' p,
    fun r r' logic c h hkind hkind' => h.agree_of_single hkind hkind' p, ?_⟩
  intro d r hread hflat
  obtain ⟨c, hc, hkind⟩ := condition_of_read hread hflat
  refine ⟨c, hc, hkind, fun r' h hkind' => ?_⟩
  have hverdict := h.sameVerdict_of_read hkind hkind' p
  exact ⟨hverdict, evaluateRules_of_sameVerdict h.id h.severity hverdict⟩

/-- The name of the computed attribute is padded. -/
def maturityDocument : Document :=
  .record [("id", .text "max_maturity_age"), ("field", .text " maturity_age "),
    ("operator", .text "lte"), ("threshold", .real 65)]

def maturityRule (kind : RuleKind) : Rule :=
  .ofKind "max_maturity_age" "max_maturity_age" kind .hard

/-- Sixty-seven years old at the end of the term. -/
def elder : Applicant :=
  ((Record.empty : Applicant).put .age (some (64 : Float))).put .termMonths (some (36 : UInt32))

/-- Whichever way the rule is written, it declines. -/
theorem kinds_agree_elder :
    (maturityRule (.stored ⟨"maturity_age", .lte, .number 65⟩)).evaluate elder =
        (maturityRule (.computed .maturityAge .lte (.number 65))).evaluate elder ∧
      ((maturityRule (.stored ⟨" maturity_age ", .lte, .number 65⟩)).evaluate elder).passed =
        false ∧
      ((maturityRule (.compound .or [⟨" maturity_age ", .lte, .number 65⟩])).evaluate
        elder).passed = false ∧
      (evaluateRules elder [maturityRule (.stored ⟨" maturity_age ", .lte, .number 65⟩)]).outcome =
        .autoDecline := by
  obtain ⟨hcomputed, hsingle, hread⟩ := kinds_agree elder
  have halike (kind kind' : RuleKind) : (maturityRule kind).Alike (maturityRule kind') :=
    ⟨rfl, rfl, rfl, rfl, rfl⟩
  have hdocument : (Rule.read maturityDocument).outcome =
      .ok (maturityRule (.computed .maturityAge .lte (.number 65))) := rfl
  obtain ⟨c, hc, -, hstored⟩ := hread _ _ hdocument rfl
  have hpadded : Condition.read maturityDocument = .ok ⟨" maturity_age ", .lte, .number 65⟩ := rfl
  cases hc.symm.trans hpadded
  obtain ⟨hverdict, hlist⟩ :=
    hstored (maturityRule (.stored ⟨" maturity_age ", .lte, .number 65⟩)) (halike ..) rfl
  have hfails : ((maturityRule (.computed .maturityAge .lte (.number 65))).evaluate elder).passed =
      false := by decide +kernel
  have hdeclines : (evaluateRules elder
      [maturityRule (.computed .maturityAge .lte (.number 65))]).outcome = .autoDecline := by
    decide +kernel
  have hpassed := hverdict.passed.trans hfails
  exact ⟨hcomputed _ _ _ _ _ (halike ..) rfl rfl, hpassed,
    (hsingle _ _ .or _ (halike ..) rfl rfl).1.passed.symm.trans hpassed,
    (hlist [] []).1.trans hdeclines⟩

end Rule

end Lending
