import Lending.Engine.Explanation
import Lending.Proofs.Rule.Aggregate
import Lending.Proofs.Strategy.Gate

/-! What an applicant is told.

Wherever an execution stops, it gives reasons exactly if it does not approve (`Answer.Grounded`),
with one exception: a gate that fails to an approval still says that the score did not reach it. So
an applicant who is not approved is told at least one reason, and an approved one is told none. -/
namespace Lending

/-- There are reasons exactly where there is no approval. -/
def Answer.Grounded (a : Answer) : Prop :=
  a.reasons = [] ↔ a.decision = .approve

/-! ### Lists of rules -/

theorem reasons_eq_nil_iff (p : Applicant) (rules : List Rule) :
    (evaluateRules p rules).reasons = [] ↔ (evaluateRules p rules).decision = .approve := by
  have h := aggregated_evaluateRules p rules
  have happrove : (evaluateRules p rules).decision = .approve ↔
      (evaluateRules p rules).outcome = .autoApprove := by
    rw [Evaluation.decision]
    cases (evaluateRules p rules).outcome <;> simp [Aggregate.decision]
  obtain ⟨hard, refer, hhard, hrefer, hreasons⟩ := h.reasons
  rw [hreasons, List.append_eq_nil_iff, hhard.eq_nil_iff, hrefer.eq_nil_iff, happrove, h.approves,
    none_failing_iff]

theorem Assessment.grounded (a : Assessment) (p : Applicant) :
    (a.verdict p).account.answer.Grounded :=
  reasons_eq_nil_iff p a.rules

namespace Strategy
variable {s : Strategy} {p : Applicant}

theorem grounded_sequential (s : Strategy) (p : Applicant) (catalog : Catalog) :
    (s.sequential p catalog).account.answer.Grounded := by
  show (evaluateRules p catalog.rules).reasons.map s.reasonCode = [] ↔ _
  rw [List.map_eq_nil_iff]
  exact reasons_eq_nil_iff p catalog.rules

/-! ### Bands, the dual path and the gate -/

theorem Banded.grounded {score : Option Float} {answer : Answer} (h : s.Banded score answer) :
    answer.Grounded := by
  unfold Answer.Grounded
  cases h with
  | unavailable => simp
  | approving band h => simp
  | adverse band h => simp [h]
  | below band => simp

theorem DualPath.grounded {score : Option Float} {a : Account} (h : s.DualPath p score a) :
    a.answer.Grounded := by
  have hcodes (rules : List Rule) : s.codesOf rules = [] ↔ rules = [] := List.map_eq_nil_iff
  unfold Answer.Grounded
  cases h with
  | declined failing some => simp [hcodes, some]
  | referred hard knockOut overlay some =>
    show s.codesOf _ ++ s.codesOf _ = [] ↔ _
    rw [List.append_eq_nil_iff, hcodes, hcodes, ← List.append_eq_nil_iff]
    simp [some]
  | approved clear cutoffs => simp
  | scored clear cutoffs bands => exact bands.grounded

theorem grounded_scoring (s : Strategy) (score : Option Float) :
    (s.scoring score).account.answer.Grounded := by
  obtain ⟨answer, hbanded, haccount⟩ := s.exists_banded score
  have hanswer : (s.scoring score).account.answer = answer := congrArg Account.answer haccount
  rw [hanswer]
  exact hbanded.grounded

/-- The gate of a hybrid strategy is shut and approves all the same. -/
structure ApprovedByGate (s : Strategy) (score : Option Float) : Prop where
  hybrid : s.mode = .hybrid
  gate : ∃ g, s.gate = some g ∧ g.failOutcome = .approve ∧ ∀ x, score = some x → ¬ g.minScore ≤ x

/-- An execution is grounded, or its gate approves what it does not let through. -/
theorem Valid.grounded (h : s.Valid) (catalog : Catalog) (card : Scorecard) (p : Applicant) :
    (s.verdict catalog card p).account.answer.Grounded ∨
      s.ApprovedByGate (card p) ∧ (s.verdict catalog card p).account.answer.decision = .approve ∧
        (s.verdict catalog card p).account.answer.reasons ≠ [] := by
  unfold verdict
  cases hmode : s.mode with
  | sequential => exact .inl (s.grounded_sequential p catalog)
  | dualPath => exact .inl (dualPath_follows h p (card p)).grounded
  | scoring => exact .inl (s.grounded_scoring (card p))
  | hybrid =>
    obtain ⟨g, hgate⟩ := h.exists_gate hmode
    dsimp only
    cases hpass : passesGate g (card p) with
    | true =>
      obtain ⟨hsame, _⟩ := hybrid_open hgate hpass p
      have hpath := (dualPath_follows h p (card p)).grounded
      refine .inl ?_
      show (s.hybrid p (card p)).reasons = [] ↔ (s.hybrid p (card p)).decision = .approve
      rw [hsame.reasons, hsame.decision]
      exact hpath
    | false =>
      rw [hybrid_shut hgate hpass]
      by_cases happrove : g.failOutcome = .approve
      · refine .inr ⟨⟨hmode, g, hgate, happrove, fun x hx hle => ?_⟩, happrove, by simp⟩
        exact Bool.false_ne_true (hpass.symm.trans (passesGate_iff.2 ⟨x, hx, hle⟩))
      · exact .inl (by simp [Answer.Grounded, happrove])

end Strategy

/-! ### Explanations -/

/-- What an applicant is told of an outcome. -/
structure Outcome.Explained (o : Outcome) : Prop where
  /-- Only an approval needs no explanation. -/
  silent_iff : (Explanation.consumer o).lines = [] ↔ o.decision = .approve
  /-- A line to each reason, in order. -/
  lines : o.decision ≠ .approve → (Explanation.consumer o).lines = o.reasons.map ("Reason: " ++ ·)
  reasons : o.reasons = [] → o.decision = .approve

theorem Outcome.explained_of_reasons {o : Outcome} (h : o.reasons = [] → o.decision = .approve) :
    o.Explained := by
  have hlines : (Explanation.consumer o).lines =
      if o.decision = .approve then [] else o.reasons.map ("Reason: " ++ ·) := rfl
  refine ⟨?silent, fun hadverse => by rw [hlines, if_neg hadverse], h⟩
  case silent =>
    rw [hlines]
    split
    · simp [*]
    · simpa [*] using mt h ‹_›

/-- **No adverse decision without a stated reason.** An applicant who is not approved is told the
reasons, at least one, and an approved one is told none; an approval that has reasons is that of a
gate which the score did not pass. -/
theorem adverse_explained :
    (∀ (s : Strategy) (catalog : Catalog) (card : Scorecard) (p : Applicant) (params : Dict Value)
      (o : Outcome), s.execute catalog card p params = .ok o →
        o.Explained ∧ (o.decision = .approve → o.reasons ≠ [] → s.ApprovedByGate (card p))) ∧
    ∀ (a : Assessment) (p : Applicant) (params : Dict Value) (o : Outcome),
      a.execute p params = .ok o →
        o.Explained ∧ (o.decision = .approve → o.reasons = []) := by
  constructor
  · intro s catalog card p params o ho
    have hvalid := Strategy.validate_ok_iff.1 (then_ok_iff.1 ho).1
    cases ho.symm.trans (hvalid.execute_eq catalog card p params)
    rcases hvalid.grounded catalog card p with hgrounded | ⟨hgate, happrove, hreasons⟩
    · refine ⟨Outcome.explained_of_reasons hgrounded.1, fun happrove hreasons => ?_⟩
      exact absurd (hgrounded.2 happrove) hreasons
    · exact ⟨Outcome.explained_of_reasons fun _ => happrove, fun _ _ => hgate⟩
  · intro a p params o ho
    cases (then_ok_iff.1 ho).2
    have hgrounded := a.grounded p
    exact ⟨Outcome.explained_of_reasons hgrounded.1, hgrounded.2⟩

/-- A gate that approves those who do not pass it. -/
def openGate : Strategy :=
  { Strategy.gatedPath with gate := some ⟨550, .approve⟩ }

/-- The knock-out rules of the small dual path on their own. -/
def debtCheck : Assessment :=
  ⟨"debt_check", none, Strategy.lendingPath.knockOuts⟩

/-- Without a score the gate approves with a reason that the applicant is not told; the referral
that the rules call for is explained. -/
theorem adverse_explained_openGate :
    (∃ o, openGate.execute .standard (.fixed none) Strategy.indebted [] = .ok o ∧
      o.decision = .approve ∧ o.reasons = ["SCORE_BELOW_GATE"] ∧
        (Explanation.consumer o).lines = [] ∧ openGate.ApprovedByGate none) ∧
    ∃ o, debtCheck.execute Strategy.indebted [] = .ok o ∧ o.decision = .refer ∧
      (Explanation.consumer o).lines = ["Reason: max_dti"] := by
  obtain ⟨hstrategies, hassessments⟩ := adverse_explained
  constructor
  · have hvalid : openGate.validate = .ok () := by rfl
    have ho := (Strategy.validate_ok_iff.1 hvalid).execute_eq .standard (.fixed none)
      Strategy.indebted []
    obtain ⟨hexplained, hgate⟩ := hstrategies _ _ _ _ _ _ ho
    exact ⟨_, ho, rfl, rfl, hexplained.silent_iff.2 rfl, hgate rfl (by decide)⟩
  · have hvalid : debtCheck.validate = .ok () := by rfl
    have ho : debtCheck.execute Strategy.indebted [] = .ok _ := then_ok_iff.2 ⟨hvalid, rfl⟩
    obtain ⟨hexplained, _⟩ := hassessments _ _ _ _ ho
    have hrefer : (debtCheck.verdict Strategy.indebted).decision = .refer := by decide +kernel
    have hreasons : (debtCheck.verdict Strategy.indebted).reasons = ["max_dti"] := by
      decide +kernel
    refine ⟨_, ho, hrefer, ?_⟩
    rw [hexplained.lines fun happrove => by cases hrefer.symm.trans happrove]
    exact congrArg (List.map ("Reason: " ++ ·)) hreasons

end Lending
