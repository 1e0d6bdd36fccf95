import Lending.Proofs.Strategy.DualPath

/-! The gate of a hybrid strategy.

A score that passes the gate is handed on to the dual path, which then does what it would have
done with a score that it took itself: the two runs differ in the field of the score and in the
steps for it (`SameButScore`). A score that does not pass settles the outcome before any rule is
looked at. -/
namespace Lending

/-! ### Runs that differ in the score -/

/-- A verdict behind a gate beside one without a gate. -/
structure Verdict.SameButScore (v w : Verdict) : Prop where
  decision : v.decision = w.decision
  reasons : v.reasons = w.reasons
  band : v.band = w.band
  results : v.results = w.results
  entries : without scoreSteps v.entries = without ["score"] w.entries

/-- An outcome behind a gate beside one without a gate. -/
structure Outcome.SameButScore (o d : Outcome) : Prop where
  decision : o.decision = d.decision
  reasons : o.reasons = d.reasons
  band : o.band = d.band
  results : o.results = d.results
  steps : without scoreSteps (o.steps.map Step.entry) = without ["score"] (d.steps.map Step.entry)

namespace Verdict.SameButScore
variable {v w : Verdict}

theorem decisionEntry_eq (h : v.SameButScore w) : v.decisionEntry = w.decisionEntry := by
  rw [decisionEntry, h.decision, h.reasons, h.band]
  rfl

theorem outcome (h : v.SameButScore w) (target : Target) (version : Option UInt32)
    (mode mode' : Option Mode) (params : Dict Value) :
    (v.outcome target version mode params).SameButScore
      (w.outcome target version mode' params) := by
  refine ⟨h.decision, h.reasons, h.band, h.results, ?_⟩
  rw [v.without_outcome (List.Subset.refl _), w.without_outcome (by decide), h.entries,
    h.decisionEntry_eq]

end Verdict.SameButScore

namespace Strategy
variable {s : Strategy}

theorem unscored_bandVerdict (s : Strategy) (score : Option Float) :
    Unscored (s.bandVerdict score).entries := by
  obtain ⟨_, _, haccount⟩ := s.exists_banded score
  have hnames : (s.bandVerdict score).entries.map Entry.name = ["score_band"] :=
    congrArg Account.steps haccount
  intro e he
  have hname : e.name ∈ ["score_band"] := hnames ▸ List.mem_map_of_mem he
  rw [List.mem_singleton.1 hname]
  decide

/-- Being handed the score or taking it makes no other difference. -/
theorem TakesOnce.sameButScore {stage : TakenScore → Verdict} (h : s.TakesOnce stage)
    (score : Option Float) :
    (stage ⟨score, []⟩).SameButScore (stage ⟨score, [scoreEntry score]⟩) := by
  have hnames : ["score"] ⊆ scoreSteps := by decide
  cases h with
  | never v unscored =>
    refine ⟨rfl, rfl, rfl, rfl, ?_⟩
    rw [unscored.without_eq (List.Subset.refl _), unscored.without_eq hnames]
  | once results entries unscored =>
    have hbands := s.unscored_bandVerdict score
    have htaken : without ["score"] [scoreEntry score] = [] := by
      simp [without, name_scoreEntry]
    refine ⟨rfl, rfl, rfl, rfl, ?_⟩
    simp only [List.nil_append, without_append, htaken, unscored.without_eq (List.Subset.refl _),
      unscored.without_eq hnames, hbands.without_eq (List.Subset.refl _), hbands.without_eq hnames]

/-! ### The gate -/

theorem passesGate_iff {g : Gate} {score : Option Float} :
    passesGate g score = true ↔ ∃ x, score = some x ∧ g.minScore ≤ x := by
  simp [passesGate, Option.any_eq_true]

theorem without_gate (g : Gate) (score : Option Float) (entries : List Entry) :
    without scoreSteps ([scoreEntry score, gateEntry g score] ++ entries) =
      without scoreSteps entries := by
  have hgate : (gateEntry g score).name = "score_gate" := rfl
  simp [without, scoreSteps, name_scoreEntry, hgate]

theorem hybrid_open {g : Gate} (hgate : s.gate = some g) {score : Option Float}
    (hpass : passesGate g score = true) (p : Applicant) :
    (s.hybrid p score).SameButScore (s.dualPath p ⟨score, [scoreEntry score]⟩) ∧
      (s.hybrid p score).score = score := by
  have hv := (s.takesOnce_dualPath p).sameButScore score
  have hrun : s.hybrid p score = { s.dualPath p ⟨score, []⟩ with
      score := score
      entries := [scoreEntry score, gateEntry g score] ++
        (s.dualPath p ⟨score, []⟩).entries } := by
    simp only [hybrid, hgate, if_pos hpass]
  rw [hrun]
  exact ⟨⟨hv.decision, hv.reasons, hv.band, hv.results, (without_gate ..).trans hv.entries⟩, rfl⟩

theorem hybrid_shut {g : Gate} (hgate : s.gate = some g) {score : Option Float}
    (hpass : passesGate g score = false) (p : Applicant) :
    (s.hybrid p score).account =
      { answer := ⟨g.failOutcome, ["SCORE_BELOW_GATE"], score, none⟩
        results := []
        steps := ["score", "score_gate"] } := by
  simp only [hybrid, hgate, hpass]
  rw [if_neg Bool.false_ne_true, Verdict.account, List.map_cons, name_scoreEntry]
  rfl

/-! ### Execution -/

theorem Valid.exists_gate (h : s.Valid) (hmode : s.mode = .hybrid) : ∃ g, s.gate = some g := by
  have hfault := h.mode
  cases hgate : s.gate with
  | none => simp [modeFault?, hmode, hgate] at hfault
  | some g => exact ⟨g, rfl⟩

/-- A hybrid strategy would do without its gate. -/
theorem Valid.ungated (h : s.Valid) : Valid { s with mode := .dualPath } :=
  ⟨h.id, h.rules, h.cutoffs, rfl⟩

/-- **A hybrid strategy is a gate in front of its dual path.** A score that reaches the gate leads
where the dual path leads, apart from the steps for the score; otherwise the gate alone decides. -/
theorem hybrid_decides (hmode : s.mode = .hybrid) (hvalid : s.validate = .ok ())
    (catalog : Catalog) (card : Scorecard) (p : Applicant) (params : Dict Value) : ∃ g o,
      s.gate = some g ∧ s.execute catalog card p params = .ok o ∧
        ((∃ x, card p = some x ∧ g.minScore ≤ x) → ∃ d,
          execute { s with mode := .dualPath } catalog card p params = .ok d ∧
            o.SameButScore d ∧ o.score = card p) ∧
        ((∀ x, card p = some x → ¬ g.minScore ≤ x) →
          o.account = Account.within
            { answer := ⟨g.failOutcome, ["SCORE_BELOW_GATE"], card p, none⟩
              results := []
              steps := ["score", "score_gate"] } params) := by
  have hvalid := validate_ok_iff.1 hvalid
  obtain ⟨g, hgate⟩ := hvalid.exists_gate hmode
  have hverdict : s.verdict catalog card p = s.hybrid p (card p) := by rw [verdict, hmode]
  refine ⟨g, _, hgate, hvalid.execute_eq .., fun hpass => ?_, fun hpass => ?_⟩
  · obtain ⟨hsame, hscore⟩ := hybrid_open hgate (passesGate_iff.2 hpass) p
    refine ⟨_, hvalid.ungated.execute_eq .., ?_, ?_⟩
    · rw [hverdict]
      exact hsame.outcome ..
    · rw [hverdict]
      exact hscore
  · have hshut : passesGate g (card p) = false := by
      refine Bool.eq_false_iff.2 fun h => ?_
      obtain ⟨x, hx, hle⟩ := passesGate_iff.1 h
      exact hpass x hx hle
    rw [Verdict.account_outcome, hverdict, hybrid_shut hgate hshut]

/-- The small dual path behind a gate. -/
def gatedPath : Strategy :=
  { lendingPath with mode := .hybrid, gate := some ⟨550, .decline⟩ }

/-- A score that passes leaves the decision to the failing rules; without one the gate declines. -/
theorem hybrid_decides_gatedPath : gatedPath.mode = .hybrid ∧ gatedPath.validate = .ok () ∧
    (∃ o d, gatedPath.execute .standard (.fixed (some 640)) indebted [] = .ok o ∧
      execute { gatedPath with mode := .dualPath } .standard (.fixed (some 640)) indebted [] =
          .ok d ∧
        o.SameButScore d ∧ o.score = some 640) ∧
    ∃ o, gatedPath.execute .standard (.fixed none) indebted [] = .ok o ∧
      o.account = ⟨⟨.decline, ["SCORE_BELOW_GATE"], none, none⟩, [],
        ["score", "score_gate", "decision"]⟩ := by
  have hvalid : gatedPath.validate = .ok () := by rfl
  refine ⟨rfl, hvalid, ?passing, ?missing⟩
  case passing =>
    obtain ⟨g, o, hgate, ho, hopen, _⟩ :=
      hybrid_decides rfl hvalid .standard (.fixed (some 640)) indebted []
    cases hgate
    obtain ⟨d, hd, hsame, hscore⟩ := hopen ⟨640, rfl, by decide +kernel⟩
    exact ⟨o, d, ho, hd, hsame, hscore⟩
  case missing =>
    obtain ⟨g, o, hgate, ho, _, hshut⟩ :=
      hybrid_decides rfl hvalid .standard (.fixed none) indebted []
    cases hgate
    exact ⟨o, ho, hshut nofun⟩

end Strategy
end Lending
