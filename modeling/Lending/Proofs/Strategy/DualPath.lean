import Lending.Proofs.Strategy.Execution

/-! The dual path against its reference.

`DualPath` says what a dual path decides from the rules that fail and the score alone: one
constructor for each stage at which it can stop, with the rules that were looked at and the steps
that are recorded up to there. A constructor that has no step of the overlay stage, or of the score,
belongs to a run that never got so far. `dualPath_decides` is that every execution of a valid
strategy in this mode follows it. -/
namespace Lending

namespace Strategy

/-- The reason codes of rules, in their order. -/
def codesOf (s : Strategy) (rules : List Rule) : List String :=
  rules.map fun r => s.reasonCode r.id

/-! ### The reference -/

/-- The answer of the score bands. -/
inductive Banded (s : Strategy) : Option Float → Answer → Prop
  | unavailable : Banded s none ⟨.refer, ["SCORE_UNAVAILABLE"], none, none⟩
  | approving {x : Float} {c : Cutoff} (band : s.bandFor x = some c) (h : c.outcome = .approve) :
      Banded s (some x) ⟨.approve, [], some x, some c.band⟩
  | adverse {x : Float} {c : Cutoff} (band : s.bandFor x = some c) (h : c.outcome ≠ .approve) :
      Banded s (some x)
        ⟨c.outcome, ["SCORE_BAND_" ++ Text.capitals c.band], some x, some c.band⟩
  | below {x : Float} (band : s.bandFor x = none) :
      Banded s (some x) ⟨.decline, ["SCORE_BELOW_CUTOFF"], some x, none⟩

/-- What a dual path comes to. -/
inductive DualPath (s : Strategy) (p : Applicant) (score : Option Float) : Account → Prop
  /-- A hard knock-out rule fails. -/
  | declined {hard : List Rule}
      (failing : FailingById p (s.knockOuts.filter (·.severity == .hard)) hard)
      (some : hard ≠ []) :
      DualPath s p score
        { answer := ⟨.decline, s.codesOf hard, none, none⟩
          results := s.knockOuts.map (Rule.evaluate · p)
          steps := ruleSteps "knock_out" s.knockOuts ++ ["knock_out"] }
  /-- No hard knock-out rule fails, but a refer knock-out rule or an overlay rule does. -/
  | referred {refer overlaid : List Rule}
      (hard : ∀ r ∈ s.knockOuts, r.severity = .hard → ¬ r.Fails p)
      (knockOut : FailingById p (s.knockOuts.filter (·.severity == .refer)) refer)
      (overlay : FailingById p s.overlays overlaid) (some : refer ++ overlaid ≠ []) :
      DualPath s p score
        { answer := ⟨.refer, s.codesOf refer ++ s.codesOf overlaid, none, none⟩
          results := (s.knockOuts ++ s.overlays).map (Rule.evaluate · p)
          steps := ruleSteps "knock_out" s.knockOuts ++ ruleSteps "overlay" s.overlays ++
            ["overlay"] }
  /-- No rule fails, and there are no score bands. -/
  | approved (clear : ∀ r ∈ s.knockOuts ++ s.overlays, ¬ r.Fails p) (cutoffs : s.cutoffs = []) :
      DualPath s p score
        { answer := ⟨.approve, [], none, none⟩
          results := (s.knockOuts ++ s.overlays).map (Rule.evaluate · p)
          steps := ruleSteps "knock_out" s.knockOuts ++ ruleSteps "overlay" s.overlays ++
            ["score_band"] }
  /-- No rule fails, and the score bands decide. -/
  | scored {answer : Answer} (clear : ∀ r ∈ s.knockOuts ++ s.overlays, ¬ r.Fails p)
      (cutoffs : s.cutoffs ≠ []) (bands : s.Banded score answer) :
      DualPath s p score
        { answer := answer
          results := (s.knockOuts ++ s.overlays).map (Rule.evaluate · p)
          steps := ruleSteps "knock_out" s.knockOuts ++ ruleSteps "overlay" s.overlays ++
            ["score", "score_band"] }

/-! ### Codes of failing rules -/

variable {s : Strategy} {p : Applicant}

theorem exists_codesOf (s : Strategy) {rules : List Rule} (hids : (rules.map Rule.id).Nodup)
    (p : Applicant) : ∃ failing, FailingById p rules failing ∧
      s.codes (failuresById (rules.map (Rule.evaluate · p))) = s.codesOf failing := by
  obtain ⟨failing, hfailing, heq⟩ := exists_failingById hids p
  refine ⟨failing, hfailing, ?_⟩
  rw [heq, codes, codesOf, List.map_map]
  exact List.map_congr_left fun r _ => congrArg s.reasonCode (r.evaluate_ruleId p)

/-- The failing knock-out rules of a severity. -/
theorem Valid.exists_knockOut (h : s.Valid) (severity : Severity) (p : Applicant) :
    ∃ failing, FailingById p (s.knockOuts.filter (·.severity == severity)) failing ∧
      s.codes (failuresOf severity (s.knockOuts.map (Rule.evaluate · p))) = s.codesOf failing := by
  rw [failuresOf_evaluate]
  exact s.exists_codesOf (h.knockOuts.sublist (List.filter_sublist.map Rule.id)) p

end Strategy

/-! ### The stages -/

/-- A verdict behind a stage of rules that did not settle it. -/
def Verdict.behind (v : Verdict) (stage : String) (results : List RuleResult) : Verdict :=
  { v with
    results := results ++ v.results
    entries := results.map (RuleResult.entry stage) ++ v.entries }

theorem Verdict.account_behind (v : Verdict) (stage : String) (rules : List Rule) (p : Applicant) :
    (v.behind stage (rules.map (Rule.evaluate · p))).account =
      { v.account with
        results := rules.map (Rule.evaluate · p) ++ v.account.results
        steps := ruleSteps stage rules ++ v.account.steps } := by
  rw [account, behind, List.map_append, names_ruleEntries]
  rfl

namespace Strategy
variable {s : Strategy} {p : Applicant}

theorem exists_banded (s : Strategy) (score : Option Float) : ∃ answer, s.Banded score answer ∧
    (s.bandVerdict score).account = ⟨answer, [], ["score_band"]⟩ := by
  cases score with
  | none => exact ⟨_, .unavailable, rfl⟩
  | some x =>
    cases hband : s.bandFor x with
    | none =>
      simp only [bandVerdict, hband]
      exact ⟨_, .below hband, rfl⟩
    | some c =>
      simp only [bandVerdict, hband]
      by_cases h : c.outcome = .approve
      · rw [if_pos h, h]
        exact ⟨_, .approving hband h, rfl⟩
      · rw [if_neg h]
        exact ⟨_, .adverse hband h, rfl⟩

theorem lastStage_approves (h : s.cutoffs = []) (taken : TakenScore) :
    (s.lastStage taken).account = ⟨⟨.approve, [], none, none⟩, [], ["score_band"]⟩ := by
  rw [lastStage, h]
  rfl

theorem name_scoreEntry (score : Option Float) : (scoreEntry score).name = "score" := by
  cases score <;> rfl

/-- The score is taken right before the bands. -/
theorem lastStage_banded (h : s.cutoffs ≠ []) (score : Option Float) :
    ∃ answer, s.Banded score answer ∧ (s.lastStage ⟨score, [scoreEntry score]⟩).account =
      ⟨answer, [], ["score", "score_band"]⟩ := by
  obtain ⟨answer, hbanded, haccount⟩ := s.exists_banded score
  refine ⟨answer, hbanded, ?_⟩
  have hlast : (s.lastStage ⟨score, [scoreEntry score]⟩).account =
      { (s.bandVerdict score).account with
        steps := (scoreEntry score).name :: (s.bandVerdict score).account.steps } := by
    rw [lastStage, if_neg (mt List.isEmpty_iff.1 h)]
    rfl
  rw [hlast, haccount, name_scoreEntry]

/-- Failing overlay rules and what the knock-out rules referred settle the outcome. -/
theorem overlayStage_refers {referred : List String}
    (h : referred ++ s.codes (failuresById (s.overlays.map (Rule.evaluate · p))) ≠ [])
    (taken : TakenScore) : (s.overlayStage p referred taken).account =
      { answer := ⟨.refer, referred ++ s.codes (failuresById (s.overlays.map (Rule.evaluate · p))),
          none, none⟩
        results := s.overlays.map (Rule.evaluate · p)
        steps := ruleSteps "overlay" s.overlays ++ ["overlay"] } := by
  rw [overlayStage, results_evaluateRules, if_neg (mt List.isEmpty_iff.1 h), Verdict.account,
    List.map_append, names_ruleEntries]
  rfl

theorem overlayStage_clear {referred : List String}
    (h : referred ++ s.codes (failuresById (s.overlays.map (Rule.evaluate · p))) = [])
    (taken : TakenScore) : s.overlayStage p referred taken =
      (s.lastStage taken).behind "overlay" (s.overlays.map (Rule.evaluate · p)) :=
  if_pos (List.isEmpty_iff.2 h)

/-- Failing hard knock-out rules settle the outcome before any overlay rule is looked at. -/
theorem dualPath_declines (h : s.codes (failuresOf .hard (s.knockOuts.map (Rule.evaluate · p))) ≠ [])
    (taken : TakenScore) : (s.dualPath p taken).account =
      { answer := ⟨.decline, s.codes (failuresOf .hard (s.knockOuts.map (Rule.evaluate · p))),
          none, none⟩
        results := s.knockOuts.map (Rule.evaluate · p)
        steps := ruleSteps "knock_out" s.knockOuts ++ ["knock_out"] } := by
  rw [dualPath, results_evaluateRules, if_neg (mt List.isEmpty_iff.1 h), Verdict.account,
    List.map_append, names_ruleEntries]
  rfl

theorem dualPath_clear (h : s.codes (failuresOf .hard (s.knockOuts.map (Rule.evaluate · p))) = [])
    (taken : TakenScore) : s.dualPath p taken =
      (s.overlayStage p (s.codes (failuresOf .refer (s.knockOuts.map (Rule.evaluate · p))))
        taken).behind "knock_out" (s.knockOuts.map (Rule.evaluate · p)) :=
  if_pos (List.isEmpty_iff.2 h)

/-- A dual path that takes its score when the bands are reached follows the reference. -/
theorem dualPath_follows (h : s.Valid) (p : Applicant) (score : Option Float) :
    s.DualPath p score (s.dualPath p ⟨score, [scoreEntry score]⟩).account := by
  obtain ⟨hard, hhard, hhardCodes⟩ := h.exists_knockOut .hard p
  obtain ⟨refer, hrefer, hreferCodes⟩ := h.exists_knockOut .refer p
  obtain ⟨overlaid, hoverlaid, hoverlaidCodes⟩ := s.exists_codesOf h.overlays p
  have hcodes (rules : List Rule) : s.codesOf rules = [] ↔ rules = [] := List.map_eq_nil_iff
  -- each stage either settles the outcome or goes in front of the next one
  by_cases hdeclined : hard = []
  case neg =>
    rw [dualPath_declines (by rwa [hhardCodes, Ne, hcodes]), hhardCodes]
    exact .declined hhard hdeclined
  rw [dualPath_clear (by rwa [hhardCodes, hcodes]), Verdict.account_behind, hreferCodes]
  have hnotHard := hhard.none_of_severity hdeclined
  have hreasons : s.codesOf refer ++ s.codesOf overlaid = [] ↔ refer ++ overlaid = [] := by
    rw [List.append_eq_nil_iff, List.append_eq_nil_iff, hcodes, hcodes]
  by_cases hreferred : refer ++ overlaid = []
  case neg =>
    rw [overlayStage_refers (by rwa [hoverlaidCodes, Ne, hreasons]), hoverlaidCodes,
      ← List.map_append, ← List.append_assoc]
    exact .referred hnotHard hrefer hoverlaid hreferred
  rw [overlayStage_clear (by rwa [hoverlaidCodes, hreasons]), Verdict.account_behind]
  obtain ⟨hnoRefer, hnoOverlaid⟩ := List.append_eq_nil_iff.1 hreferred
  have hclear : ∀ r ∈ s.knockOuts ++ s.overlays, ¬ r.Fails p := by
    intro r hr
    rcases List.mem_append.1 hr with hknockOut | hoverlay
    · cases hseverity : r.severity with
      | hard => exact hnotHard r hknockOut hseverity
      | refer => exact hrefer.none_of_severity hnoRefer r hknockOut hseverity
    · exact hoverlaid.eq_nil_iff.1 hnoOverlaid r hoverlay
  by_cases hcutoffs : s.cutoffs = []
  · rw [lastStage_approves hcutoffs]
    simpa using DualPath.approved hclear hcutoffs
  · obtain ⟨answer, hbanded, haccount⟩ := lastStage_banded hcutoffs score
    rw [haccount]
    simpa using DualPath.scored hclear hcutoffs hbanded

/-! ### Where the score is taken -/

/-- Stages that make nothing of the score, or take it once, right before the bands decide by it. -/
inductive TakesOnce (s : Strategy) : (TakenScore → Verdict) → Prop
  | never (v : Verdict) (unscored : Unscored v.entries) : TakesOnce s fun _ => v
  | once (results : List RuleResult) (entries : List Entry) (unscored : Unscored entries) :
      TakesOnce s fun taken =>
        { s.bandVerdict taken.score with
          results := results
          entries := entries ++ (taken.entries ++ (s.bandVerdict taken.score).entries) }

theorem results_bandVerdict (s : Strategy) (score : Option Float) :
    (s.bandVerdict score).results = [] := by
  obtain ⟨_, _, haccount⟩ := s.exists_banded score
  exact congrArg Account.results haccount

theorem takesOnce_lastStage (s : Strategy) : s.TakesOnce s.lastStage := by
  by_cases h : s.cutoffs.isEmpty
  · have hstage : s.lastStage = fun _ => _ := funext fun _ => if_pos h
    rw [hstage]
    exact .never _ (by simp [Unscored, scoreSteps])
  · have hstage : s.lastStage = fun taken => { s.bandVerdict taken.score with
        results := []
        entries := [] ++ (taken.entries ++ (s.bandVerdict taken.score).entries) } := by
      funext taken
      rw [lastStage, if_neg h, ← s.results_bandVerdict taken.score]
      rfl
    rw [hstage]
    exact .once _ _ fun _ he => absurd he List.not_mem_nil

theorem TakesOnce.behind {stage : TakenScore → Verdict} (h : s.TakesOnce stage) (name : String)
    (results : List RuleResult) : s.TakesOnce fun taken => (stage taken).behind name results := by
  have hrules := unscored_ruleEntries name results
  cases h with
  | never v unscored => exact .never _ (List.forall_mem_append.2 ⟨hrules, unscored⟩)
  | once results' entries unscored =>
    have hentries : Unscored (results.map (RuleResult.entry name) ++ entries) :=
      List.forall_mem_append.2 ⟨hrules, unscored⟩
    simpa [Verdict.behind] using TakesOnce.once (s := s) (results ++ results') _ hentries

theorem takesOnce_overlayStage (s : Strategy) (p : Applicant) (referred : List String) :
    s.TakesOnce (s.overlayStage p referred) := by
  by_cases h : referred ++ s.codes (failuresById (s.overlays.map (Rule.evaluate · p))) = []
  · have hstage := funext fun taken => overlayStage_clear h taken
    rw [hstage]
    exact s.takesOnce_lastStage.behind "overlay" _
  · have hstage : s.overlayStage p referred = fun _ => _ :=
      funext fun _ => if_neg (mt List.isEmpty_iff.1 h)
    rw [hstage]
    exact .never _ (List.forall_mem_append.2
      ⟨unscored_ruleEntries "overlay" _, by simp [scoreSteps]⟩)

/-- **A dual path takes the score at most once**, and nothing before that depends on it. -/
theorem takesOnce_dualPath (s : Strategy) (p : Applicant) : s.TakesOnce (s.dualPath p) := by
  by_cases h : s.codes (failuresOf .hard (s.knockOuts.map (Rule.evaluate · p))) = []
  · have hstage := funext fun taken => dualPath_clear h taken
    rw [hstage]
    exact (s.takesOnce_overlayStage p _).behind "knock_out" _
  · have hstage : s.dualPath p = fun _ => _ := funext fun _ => if_neg (mt List.isEmpty_iff.1 h)
    rw [hstage]
    exact .never _ (List.forall_mem_append.2
      ⟨unscored_ruleEntries "knock_out" _, by simp [scoreSteps]⟩)

/-- Where no step for the score is left, any other score would have done. -/
theorem TakesOnce.eq_of_no_step {stage : TakenScore → Verdict} (h : s.TakesOnce stage)
    {score : Option Float}
    (hstep : "score" ∉ (stage ⟨score, [scoreEntry score]⟩).account.steps) (taken : TakenScore) :
    stage taken = stage ⟨score, [scoreEntry score]⟩ := by
  cases h with
  | never v _ => rfl
  | once results entries _ => exact absurd (by simp [Verdict.account, name_scoreEntry]) hstep

/-! ### Execution -/

/-- **Dual paths follow their reference.** One that leaves no step for the score has not looked at
it: every other scorecard gives the same outcome. -/
theorem dualPath_decides (hmode : s.mode = .dualPath) (hvalid : s.validate = .ok ())
    (catalog : Catalog) (card : Scorecard) (p : Applicant) (params : Dict Value) : ∃ o a,
      s.execute catalog card p params = .ok o ∧ s.DualPath p (card p) a ∧
        o.account = a.within params ∧
        ("score" ∉ a.steps → ∀ card', s.execute catalog card' p params = .ok o) := by
  have hvalid := validate_ok_iff.1 hvalid
  have hverdict (card : Scorecard) :
      s.verdict catalog card p = s.dualPath p ⟨card p, [scoreEntry (card p)]⟩ := by
    rw [verdict, hmode]
  refine ⟨_, _, hvalid.execute_eq .., dualPath_follows hvalid p (card p), ?_, ?_⟩
  · rw [Verdict.account_outcome, hverdict]
  · intro hstep card'
    rw [hvalid.execute_eq, hverdict card', hverdict card,
      (s.takesOnce_dualPath p).eq_of_no_step hstep]

/-- A dual path whose overlay rule has another code than its id. -/
def lendingPath : Strategy :=
  { ofMode "standard_v2" .dualPath with
    knockOuts := [.stored "min_age" "Minimum age" "age" .gte (.number 18) .hard,
      .stored "max_dti" "Maximum debt-to-income ratio" "dti_ratio" .lte (.number 0.45) .refer]
    overlays := [.stored "term" "Short term" "term_months" .lte (.number 24) .hard]
    cutoffs := [⟨"near_prime", 600, .refer⟩, ⟨"prime", 700, .approve⟩]
    reasonCodes := [("term", "TERM_TOO_LONG")] }

/-- Too much debt and too long a term: one rule of each list fails. -/
def indebted : Applicant :=
  (((Record.empty : Applicant).put .age (some (40 : Float))).put .dtiRatio
    (some (0.5 : Float))).put .termMonths (some (36 : UInt32))

/-- Both rules are reported, and the score is not looked at. -/
theorem dualPath_decides_indebted : lendingPath.mode = .dualPath ∧
    lendingPath.validate = .ok () ∧ ∃ o a,
      lendingPath.execute .standard (.fixed (some 640)) indebted [] = .ok o ∧
        lendingPath.DualPath indebted (some 640) a ∧ o.account = a.within [] ∧
        o.reasons = ["max_dti", "TERM_TOO_LONG"] ∧
        ∀ card', lendingPath.execute .standard card' indebted [] = .ok o := by
  have hvalid : lendingPath.validate = .ok () := by rfl
  obtain ⟨o, a, ho, hpath, haccount, hscore⟩ :=
    dualPath_decides rfl hvalid .standard (.fixed (some 640)) indebted []
  have hsteps : o.account.steps = a.steps ++ ["decision"] := congrArg Account.steps haccount
  have hrun := (validate_ok_iff.1 hvalid).execute_eq .standard (.fixed (some 640)) indebted []
  cases ho.symm.trans hrun
  refine ⟨rfl, hvalid, _, a, ho, hpath, haccount, by decide +kernel, hscore fun h => ?_⟩
  exact absurd (hsteps ▸ List.mem_append_left _ h) (by decide +kernel)

end Strategy
end Lending
