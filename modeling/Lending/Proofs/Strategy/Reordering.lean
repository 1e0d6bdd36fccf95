import Lending.Proofs.Strategy.Bands
import Lending.Proofs.Strategy.DualPath

/-! Strategies whose parts are declared in another order.

Failing rules are reported by id and bands are taken from the highest down, so what a strategy
answers is a function of the sets of its rules and bands (`verdict_reordered`). A dual path shows it
in two steps: its answer is put together from the codes of the failing rules and the answer of the
bands (`answer_dualPath`), and none of these depends on the order. -/
namespace Lending.Strategy

/-- The same strategy with its rules and bands in another order. -/
structure Reordered (s s' : Strategy) : Prop where
  same : s' =
    { s with knockOuts := s'.knockOuts, overlays := s'.overlays, cutoffs := s'.cutoffs }
  knockOuts : s.knockOuts.Perm s'.knockOuts
  overlays : s.overlays.Perm s'.overlays
  cutoffs : s.cutoffs.Perm s'.cutoffs
  /-- Bands are in another order only if their ends are all different. -/
  distinct : s'.cutoffs = s.cutoffs ∨ (s.cutoffs.map Cutoff.minScore).Nodup

/-! ### Answers of the modes -/

/-- A dual path's answer: failing hard rules decline, failing others refer, and where no rule fails
the last stage answers. -/
def dualAnswer (hard referred : List String) (last : Answer) : Answer :=
  if hard ≠ [] then ⟨.decline, hard, none, none⟩
  else if referred ≠ [] then ⟨.refer, referred, none, none⟩
  else last

variable {s s' : Strategy}

theorem answer_dualPath (s : Strategy) (p : Applicant) (taken : TakenScore) :
    (s.dualPath p taken).account.answer =
      dualAnswer (s.codes (failuresOf .hard (s.knockOuts.map (Rule.evaluate · p))))
        (s.codes (failuresOf .refer (s.knockOuts.map (Rule.evaluate · p))) ++
          s.codes (failuresById (s.overlays.map (Rule.evaluate · p))))
        (s.lastStage taken).account.answer := by
  unfold dualAnswer
  split_ifs with hhard hreferred
  case pos => rw [dualPath_declines hhard]
  all_goals rw [dualPath_clear (not_not.1 hhard), Verdict.account_behind]
  case pos => rw [overlayStage_refers hreferred]
  case neg => rw [overlayStage_clear (not_not.1 hreferred), Verdict.account_behind]

theorem answer_hybrid (s : Strategy) (p : Applicant) (score : Option Float) :
    (s.hybrid p score).account.answer =
      if s.gate.all (passesGate · score) then
        { (s.dualPath p ⟨score, []⟩).account.answer with score := score }
      else ⟨(s.gate.map Gate.failOutcome).getD .approve, [scoreBelowGate], score, none⟩ := by
  unfold hybrid
  cases s.gate with
  | none => rfl
  | some g =>
    dsimp only [Option.all_some, Option.map_some, Option.getD_some]
    split <;> rfl

namespace Reordered
variable (h : s.Reordered s')
include h

theorem id_eq : s'.id = s.id := by
  rw [h.same]

theorem mode_eq : s'.mode = s.mode := by
  rw [h.same]

theorem gate_eq : s'.gate = s.gate := by
  rw [h.same]

theorem reasonCode_eq : s'.reasonCode = s.reasonCode := by
  rw [h.same]
  rfl

theorem isEmpty_cutoffs : s'.cutoffs.isEmpty = s.cutoffs.isEmpty :=
  h.cutoffs.symm.isEmpty_eq

theorem valid (hvalid : s.Valid) : s'.Valid where
  id := h.id_eq ▸ hvalid.id
  rules := ((h.knockOuts.append h.overlays).map Rule.id).nodup_iff.1 hvalid.rules
  cutoffs c hc := hvalid.cutoffs c (h.cutoffs.mem_iff.2 hc)
  mode := by
    rw [modeFault?, h.mode_eq, h.gate_eq, h.isEmpty_cutoffs]
    exact hvalid.mode

theorem bandFor_eq (hvalid : s.Valid) : s'.bandFor = s.bandFor := by
  rcases h.distinct with hsame | hdistinct
  · funext x
    rw [bandFor, bandFor, bandsDescending, bandsDescending, hsame]
  · exact hvalid.hasFiniteBands.bandFor_perm h.cutoffs hdistinct

/-! ### Failing rules -/

theorem codes_eq {rules rules' : List Rule} (hids : (rules.map Rule.id).Nodup)
    (hperm : rules.Perm rules') (p : Applicant) :
    s'.codes (failuresById (rules'.map (Rule.evaluate · p))) =
      s.codes (failuresById (rules.map (Rule.evaluate · p))) := by
  obtain ⟨failing, hfailing, hcodes⟩ := s.exists_codesOf hids p
  obtain ⟨failing', hfailing', hcodes'⟩ :=
    s'.exists_codesOf ((hperm.map Rule.id).nodup_iff.1 hids) p
  rw [hcodes, hcodes', hfailing.unique hfailing' hperm, codesOf, codesOf, h.reasonCode_eq]

theorem knockOut_codes_eq (hvalid : s.Valid) (severity : Severity) (p : Applicant) :
    s'.codes (failuresOf severity (s'.knockOuts.map (Rule.evaluate · p))) =
      s.codes (failuresOf severity (s.knockOuts.map (Rule.evaluate · p))) := by
  rw [failuresOf_evaluate, failuresOf_evaluate]
  exact h.codes_eq (hvalid.knockOuts.sublist (List.filter_sublist.map Rule.id))
    (h.knockOuts.filter _) p

/-! ### Modes -/

theorem bandVerdict_eq (hvalid : s.Valid) : s'.bandVerdict = s.bandVerdict := by
  funext score
  cases score with
  | none => rfl
  | some x => simp only [bandVerdict, h.bandFor_eq hvalid]

theorem lastStage_eq (hvalid : s.Valid) : s'.lastStage = s.lastStage := by
  funext taken
  rw [lastStage, lastStage, h.isEmpty_cutoffs, h.bandVerdict_eq hvalid]

theorem answer_dualPath_eq (hvalid : s.Valid) (p : Applicant) (taken : TakenScore) :
    (s'.dualPath p taken).account.answer = (s.dualPath p taken).account.answer := by
  rw [answer_dualPath, answer_dualPath, h.knockOut_codes_eq hvalid, h.knockOut_codes_eq hvalid,
    h.codes_eq hvalid.overlays h.overlays, h.lastStage_eq hvalid]

theorem verdict_reordered (hvalid : s.Valid) (catalog : Catalog) (card : Scorecard)
    (p : Applicant) : (s'.verdict catalog card p).account.answer =
      (s.verdict catalog card p).account.answer := by
  unfold verdict
  rw [h.mode_eq]
  cases s.mode with
  | sequential => simp only [sequential, h.reasonCode_eq]
  | dualPath => exact h.answer_dualPath_eq hvalid p _
  | scoring => rw [scoring, scoring, h.bandVerdict_eq hvalid]
  | hybrid =>
    dsimp only
    rw [answer_hybrid, answer_hybrid, h.gate_eq, h.answer_dualPath_eq hvalid]

end Reordered

/-- **The order of declaration decides nothing.** A valid strategy is still valid with its rules, or
its bands of different ends, in another order, and every applicant gets the same decision, reasons,
score and band. -/
theorem order_decides_nothing (h : s.Reordered s') (hvalid : s.validate = .ok ())
    (catalog : Catalog) (card : Scorecard) (p : Applicant) (params : Dict Value) : ∃ o o',
      s.execute catalog card p params = .ok o ∧ s'.execute catalog card p params = .ok o' ∧
        o'.account.answer = o.account.answer := by
  have hvalid := validate_ok_iff.1 hvalid
  refine ⟨_, _, hvalid.execute_eq .., (h.valid hvalid).execute_eq .., ?_⟩
  rw [Verdict.account_outcome, Verdict.account_outcome]
  exact h.verdict_reordered hvalid catalog card p

/-- The small dual path, written down the other way round. -/
def turnedPath : Strategy :=
  { lendingPath with
    knockOuts := lendingPath.knockOuts.reverse
    overlays := lendingPath.overlays.reverse
    cutoffs := lendingPath.cutoffs.reverse }

theorem reordered_turnedPath : lendingPath.Reordered turnedPath where
  same := rfl
  knockOuts := (List.reverse_perm _).symm
  overlays := (List.reverse_perm _).symm
  cutoffs := (List.reverse_perm _).symm
  distinct := .inr (by decide)

/-- The reasons do not come the other way round. -/
theorem order_decides_nothing_turned : lendingPath.Reordered turnedPath ∧
    lendingPath.validate = .ok () ∧ ∃ o o',
      lendingPath.execute .standard (.fixed (some 640)) indebted [] = .ok o ∧
        turnedPath.execute .standard (.fixed (some 640)) indebted [] = .ok o' ∧
        o'.account.answer = o.account.answer ∧ o.reasons = ["max_dti", "TERM_TOO_LONG"] := by
  have hvalid : lendingPath.validate = .ok () := by rfl
  obtain ⟨o, o', ho, ho', hanswer⟩ :=
    order_decides_nothing reordered_turnedPath hvalid .standard (.fixed (some 640)) indebted []
  refine ⟨reordered_turnedPath, hvalid, o, o', ho, ho', hanswer, ?_⟩
  cases ho.symm.trans ((validate_ok_iff.1 hvalid).execute_eq ..)
  decide +kernel

end Lending.Strategy
