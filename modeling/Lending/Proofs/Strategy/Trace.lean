import Lending.Proofs.Strategy.Gate

/-! The steps of an execution beside its results.

Steps and results are put together stage by stage, each by its own list. `Recorded` says that two
such lists belong together, and it holds of the lists of two stages one after the other if it holds
of each; `Scored` says the same of the score and the steps for it. From both, every outcome is
`Traced`: who reads the steps reads off which rules were looked at, what became of each, whether a
score was taken and how the decision fell. -/
namespace Lending

/-! ### Steps of rules -/

/-- The stages whose rules leave a step each. -/
def ruleStages : List String :=
  ["rule", "knock_out", "overlay"]

/-- The steps that a stage leaves besides those of its rules. -/
def stageSteps : List String :=
  ["score", "score_gate", "score_band", "knock_out", "overlay"]

/-- The steps that stand at the ends of an execution. -/
def outerSteps : List String :=
  ["routing_params", "decision"]

namespace Entry

/-- A step is a rule's if its name is that of a stage of rules with something after a colon. -/
def isOfRule (e : Entry) : Bool :=
  ruleStages.any fun stage => (stage ++ ":").toList.isPrefixOf e.name.toList

/-- A step tells of a result: its rule, its message and what became of it. -/
structure Reports (e : Entry) (r : RuleResult) : Prop where
  name : ∃ stage ∈ ruleStages, e.name = stage ++ ":" ++ r.ruleId
  outcome : e.outcome = if r.isSkipped then .skipped else if r.passed then .pass else .fail
  detail : e.detail = r.message

end Entry

theorem isOfRule_entry {stage : String} (hstage : stage ∈ ruleStages) (r : RuleResult) :
    (r.entry stage).isOfRule = true := by
  refine List.any_eq_true.2 ⟨stage, hstage, ?_⟩
  show (stage ++ ":").toList.isPrefixOf (stage ++ ":" ++ r.ruleId).toList = true
  have hname : (stage ++ ":" ++ r.ruleId).toList = (stage ++ ":").toList ++ r.ruleId.toList :=
    String.toList_append
  rw [hname, List.isPrefixOf_iff_prefix]
  exact List.prefix_append ..

/-- The steps that stages and executions leave of their own are no rule's. -/
theorem filter_isOfRule_eq_nil {entries : List Entry}
    (h : ∀ e ∈ entries, e.name ∈ stageSteps ++ outerSteps) :
    entries.filter Entry.isOfRule = [] := by
  have hnames : ∀ name ∈ stageSteps ++ outerSteps, (Entry.mk name .pass "").isOfRule = false := by
    decide
  refine List.filter_eq_nil_iff.2 fun e he => ?_
  have hname : (Entry.mk e.name .pass "").isOfRule = e.isOfRule := rfl
  rw [← hname, hnames e.name (h e he)]
  exact Bool.false_ne_true

theorem name_entry_not_outer (stage : String) (r : RuleResult) :
    (r.entry stage).name ∉ outerSteps := by
  have hcolon : ':' ∈ (r.entry stage).name.toList := by simp [RuleResult.entry]
  have houter : ∀ name ∈ outerSteps, ':' ∉ name.toList := by decide
  exact fun h => houter _ h hcolon

/-! ### Entries beside results -/

/-- Entries and results that belong together: the entries of rules tell of the results one by one,
and no entry is one of those at the ends. -/
structure Recorded (entries : List Entry) (results : List RuleResult) : Prop where
  rules : List.Forall₂ Entry.Reports (entries.filter Entry.isOfRule) results
  inner : ∀ e ∈ entries, e.name ∉ outerSteps

theorem Recorded.append {entries entries' : List Entry} {results results' : List RuleResult}
    (h : Recorded entries results) (h' : Recorded entries' results') :
    Recorded (entries ++ entries') (results ++ results') := by
  constructor
  · rw [List.filter_append]
    exact List.rel_append h.rules h'.rules
  · exact List.forall_mem_append.2 ⟨h.inner, h'.inner⟩

theorem recorded_rules {stage : String} (hstage : stage ∈ ruleStages) (results : List RuleResult) :
    Recorded (results.map (RuleResult.entry stage)) results := by
  constructor
  · have hall : (results.map (RuleResult.entry stage)).filter Entry.isOfRule =
        results.map (RuleResult.entry stage) := by
      refine List.filter_eq_self.2 fun e he => ?_
      obtain ⟨r, _, rfl⟩ := List.mem_map.1 he
      exact isOfRule_entry hstage r
    rw [hall, List.forall₂_map_left_iff, List.forall₂_same]
    exact fun r _ => ⟨⟨stage, hstage, rfl⟩, rfl, rfl⟩
  · intro e he
    obtain ⟨r, _, rfl⟩ := List.mem_map.1 he
    exact name_entry_not_outer stage r

theorem recorded_steps {entries : List Entry} (h : ∀ e ∈ entries, e.name ∈ stageSteps) :
    Recorded entries [] := by
  constructor
  · rw [filter_isOfRule_eq_nil fun e he => List.mem_append_left _ (h e he)]
    exact .nil
  · have hdistinct : ∀ name ∈ stageSteps, name ∉ outerSteps := by decide
    exact fun e he => hdistinct _ (h e he)

/-! ### The score -/

/-- The entries under a name. -/
def named (name : String) (entries : List Entry) : List Entry :=
  entries.filter (·.name = name)

@[simp] theorem named_append (name : String) (entries entries' : List Entry) :
    named name (entries ++ entries') = named name entries ++ named name entries' :=
  List.filter_append ..

theorem Unscored.named_eq {entries : List Entry} (h : Unscored entries) :
    named "score" entries = [] := by
  refine List.filter_eq_nil_iff.2 fun e he hname => h e he ?_
  rw [of_decide_eq_true hname]
  exact List.mem_cons_self ..

/-- What a verdict and its entries make of a score that is there to be taken: nothing, or the one
that the entries which come with it record. -/
inductive Asks (taken : Strategy.TakenScore) (v : Verdict) : Prop
  | never (score : v.score = none) (band : v.band = none) (steps : named "score" v.entries = [])
  | once (score : v.score = taken.score) (band : taken.score = none → v.band = none)
      (steps : named "score" v.entries = named "score" taken.entries)

/-- The entries of a verdict tell what it is made of, where it can take a score. -/
structure Tells (taken : Strategy.TakenScore) (v : Verdict) : Prop where
  recorded : Recorded v.entries v.results
  asks : Asks taken v

/-- A score with the step that records it. -/
def Strategy.recordedScore (score : Option Float) : Strategy.TakenScore :=
  ⟨score, [Strategy.scoreEntry score]⟩

/-- The entries of a verdict tell what it is made of, its score among it. -/
def Verdict.Faithful (v : Verdict) : Prop :=
  Tells (Strategy.recordedScore v.score) v

/-! ### Stages -/

/-- Rules alone, without a score. -/
theorem Verdict.faithful_of_rules {v : Verdict} (hscore : v.score = none) (hband : v.band = none)
    (hentries : v.entries = v.results.map (RuleResult.entry "rule")) : v.Faithful := by
  constructor
  · rw [hentries]
    exact recorded_rules (by decide) _
  · refine .never hscore hband ?_
    rw [hentries]
    exact (unscored_ruleEntries "rule" _).named_eq

theorem Tells.behind {taken : Strategy.TakenScore} {v : Verdict} (h : Tells taken v)
    {stage : String} (hstage : stage ∈ ruleStages) (results : List RuleResult) :
    Tells taken (v.behind stage results) := by
  have hentries : named "score" (v.behind stage results).entries = named "score" v.entries := by
    rw [Verdict.behind, named_append, (unscored_ruleEntries stage results).named_eq,
      List.nil_append]
  refine ⟨(recorded_rules hstage results).append h.recorded, ?_⟩
  cases h.asks with
  | never score band steps => exact .never score band (hentries.trans steps)
  | once score band steps => exact .once score band (hentries.trans steps)

/-- The verdict of a stage of rules that settles the outcome: after the steps of the rules there is
one for the stage. -/
def Verdict.settledAt (stage : String) (decision : Decision) (reasons : List String)
    (results : List RuleResult) (detail : String) : Verdict where
  decision := decision
  reasons := reasons
  score := none
  band := none
  results := results
  entries := results.map (RuleResult.entry stage) ++ [⟨stage, .fail, detail⟩]

theorem tells_settledAt {stage : String} (hstage : stage ∈ ruleStages) (hstep : stage ∈ stageSteps)
    (hscore : stage ∉ scoreSteps) (taken : Strategy.TakenScore) (decision : Decision)
    (reasons : List String) (results : List RuleResult) (detail : String) :
    Tells taken (.settledAt stage decision reasons results detail) := by
  have hmark : Unscored [⟨stage, .fail, detail⟩] := List.forall_mem_singleton.2 hscore
  constructor
  · have hstage' : Recorded [⟨stage, .fail, detail⟩] [] :=
      recorded_steps (List.forall_mem_singleton.2 hstep)
    have hrecorded := (recorded_rules hstage results).append hstage'
    rwa [List.append_nil] at hrecorded
  · refine .never rfl rfl ?_
    rw [Verdict.settledAt, named_append, (unscored_ruleEntries stage results).named_eq,
      hmark.named_eq, List.nil_append]

namespace Strategy
variable {s : Strategy} {p : Applicant} {taken : TakenScore}

theorem named_scoreEntry (score : Option Float) :
    named "score" [scoreEntry score] = [scoreEntry score] := by
  simp [named, name_scoreEntry]

theorem bandVerdict_entries (s : Strategy) (score : Option Float) :
    ∀ e ∈ (s.bandVerdict score).entries, e.name ∈ stageSteps := by
  obtain ⟨_, _, haccount⟩ := s.exists_banded score
  have hnames : (s.bandVerdict score).entries.map Entry.name = ["score_band"] :=
    congrArg Account.steps haccount
  intro e he
  have hname : e.name ∈ ["score_band"] := hnames ▸ List.mem_map_of_mem he
  rw [List.mem_singleton.1 hname]
  decide

/-- The bands decide by the score they are given, and there is no band without one. -/
theorem bandVerdict_score (s : Strategy) (score : Option Float) :
    (s.bandVerdict score).score = score ∧ (score = none → (s.bandVerdict score).band = none) := by
  obtain ⟨answer, hbanded, haccount⟩ := s.exists_banded score
  have hscore : (s.bandVerdict score).score = answer.score := congrArg (·.answer.score) haccount
  have hband : (s.bandVerdict score).band = answer.band := congrArg (·.answer.band) haccount
  rw [hscore, hband]
  cases hbanded with
  | unavailable => exact ⟨rfl, fun _ => rfl⟩
  | approving => exact ⟨rfl, nofun⟩
  | adverse => exact ⟨rfl, nofun⟩
  | below => exact ⟨rfl, nofun⟩

/-- A score that is taken and put to the bands. -/
theorem tells_banded (htaken : ∀ e ∈ taken.entries, e.name ∈ stageSteps) :
    Tells taken { s.bandVerdict taken.score with
      entries := taken.entries ++ (s.bandVerdict taken.score).entries } := by
  obtain ⟨hscore, hband⟩ := s.bandVerdict_score taken.score
  constructor
  · have hrecorded := (recorded_steps htaken).append
      (recorded_steps (s.bandVerdict_entries taken.score))
    rwa [List.append_nil, ← s.results_bandVerdict taken.score] at hrecorded
  · refine .once hscore hband ?_
    rw [named_append, (s.unscored_bandVerdict taken.score).named_eq, List.append_nil]

theorem tells_lastStage (htaken : ∀ e ∈ taken.entries, e.name ∈ stageSteps) :
    Tells taken (s.lastStage taken) := by
  unfold lastStage
  split
  · exact ⟨recorded_steps (List.forall_mem_singleton.2 (by decide)), .never rfl rfl rfl⟩
  · exact tells_banded htaken

theorem tells_overlayStage (htaken : ∀ e ∈ taken.entries, e.name ∈ stageSteps)
    (referred : List String) : Tells taken (s.overlayStage p referred taken) := by
  by_cases h : referred ++ s.codes (failuresById (s.overlays.map (Rule.evaluate · p))) = []
  · rw [overlayStage_clear h]
    exact (tells_lastStage htaken).behind (by decide) _
  · have hsettled : s.overlayStage p referred taken = .settledAt "overlay" .refer _ _ _ :=
      if_neg (mt List.isEmpty_iff.1 h)
    rw [hsettled]
    exact tells_settledAt (by decide) (by decide) (by decide) ..

theorem tells_dualPath (htaken : ∀ e ∈ taken.entries, e.name ∈ stageSteps) :
    Tells taken (s.dualPath p taken) := by
  by_cases h : s.codes (failuresOf .hard (s.knockOuts.map (Rule.evaluate · p))) = []
  · rw [dualPath_clear h]
    exact (tells_overlayStage htaken _).behind (by decide) _
  · have hsettled : s.dualPath p taken = .settledAt "knock_out" .decline _ _ _ :=
      if_neg (mt List.isEmpty_iff.1 h)
    rw [hsettled]
    exact tells_settledAt (by decide) (by decide) (by decide) ..

/-! ### Modes -/

theorem scoreEntry_step (score : Option Float) :
    ∀ e ∈ (recordedScore score).entries, e.name ∈ stageSteps := by
  refine List.forall_mem_singleton.2 ?_
  rw [name_scoreEntry]
  decide

theorem Tells.faithful {score : Option Float} {v : Verdict} (h : Tells (recordedScore score) v) :
    v.Faithful := by
  refine ⟨h.recorded, ?_⟩
  cases h.asks with
  | never score band steps => exact .never score band steps
  | once score band steps =>
    obtain rfl : v.score = _ := score
    exact .once rfl band steps

/-- A score that is recorded ahead of stages which are handed it and record nothing. -/
theorem Tells.ahead {score : Option Float} {v : Verdict} (h : Tells ⟨score, []⟩ v)
    {marks : List Entry} (hmarks : ∀ e ∈ marks, e.name ∈ stageSteps)
    (hnamed : named "score" marks = [scoreEntry score]) :
    Verdict.Faithful { v with score := score, entries := marks ++ v.entries } := by
  have hrecorded := (recorded_steps hmarks).append h.recorded
  have hnone : named "score" v.entries = [] := by
    cases h.asks with
    | never _ _ steps => exact steps
    | once _ _ steps => exact steps
  have hband : score = none → v.band = none := by
    cases h.asks with
    | never _ band _ => exact fun _ => band
    | once _ band _ => exact band
  refine ⟨hrecorded, .once rfl hband ?_⟩
  rw [named_append, hnone, hnamed, List.append_nil]
  exact (named_scoreEntry score).symm

theorem faithful_sequential (s : Strategy) (p : Applicant) (catalog : Catalog) :
    (s.sequential p catalog).Faithful :=
  Verdict.faithful_of_rules rfl rfl rfl

theorem faithful_hybrid (s : Strategy) (p : Applicant) (score : Option Float) :
    (s.hybrid p score).Faithful := by
  have hpath : Tells ⟨score, []⟩ (s.dualPath p ⟨score, []⟩) :=
    tells_dualPath (List.forall_mem_nil _)
  have hscore := scoreEntry_step score
  unfold hybrid
  split
  · exact Tells.ahead hpath hscore (named_scoreEntry score)
  · rename_i g _
    have hmarks : ∀ e ∈ [scoreEntry score, gateEntry g score], e.name ∈ stageSteps :=
      List.forall_mem_cons.2 ⟨hscore _ (List.mem_cons_self ..),
        List.forall_mem_singleton.2 (show "score_gate" ∈ stageSteps by decide)⟩
    have hnamed : named "score" [scoreEntry score, gateEntry g score] = [scoreEntry score] := by
      simp [named, name_scoreEntry, show (gateEntry g score).name = "score_gate" from rfl]
    dsimp only
    split
    · exact Tells.ahead hpath hmarks hnamed
    · exact ⟨recorded_steps hmarks,
        .once rfl (fun _ => rfl) (hnamed.trans (named_scoreEntry score).symm)⟩

/-- Whatever the mode, the entries of a verdict tell what it is made of. -/
theorem faithful_verdict (s : Strategy) (catalog : Catalog) (card : Scorecard) (p : Applicant) :
    (s.verdict catalog card p).Faithful := by
  unfold verdict
  cases s.mode with
  | sequential => exact s.faithful_sequential p catalog
  | dualPath => exact Tells.faithful (tells_dualPath (scoreEntry_step (card p)))
  | scoring => exact Tells.faithful (tells_banded (scoreEntry_step (card p)))
  | hybrid => exact s.faithful_hybrid p (card p)

end Strategy

theorem Assessment.faithful_verdict (a : Assessment) (p : Applicant) : (a.verdict p).Faithful :=
  Verdict.faithful_of_rules rfl rfl rfl

/-! ### Numbered steps -/

/-- The steps of an outcome tell what it is made of. -/
structure Outcome.Traced (params : Dict Value) (o : Outcome) : Prop where
  /-- Steps are numbered from one, with no gap. -/
  numbers : o.steps.map Step.number = List.range' 1 o.steps.length
  params : o.steps.head?.map Step.name = some "routing_params" ↔ params ≠ []
  decision : ∃ before last, o.steps = before ++ [last] ∧ last.name = "decision" ∧
    last.outcome = o.decision.stepOutcome ∧ ∀ step ∈ before, step.name ≠ "decision"
  /-- The steps of rules tell of the results one by one and in order. -/
  rules : List.Forall₂ (fun step r => step.entry.Reports r) (o.steps.filter (·.entry.isOfRule))
    o.results
  scoredOnce : (o.steps.filter (·.name = "score")).length ≤ 1
  score : o.score.isSome ↔ ∃ step ∈ o.steps, step.name = "score" ∧ step.outcome = .recorded
  band : o.band.isSome → o.score.isSome

theorem number_numbered (entries : List Entry) :
    (Step.numbered entries).map Step.number = List.range' 1 (Step.numbered entries).length := by
  have hnumber (x : Entry × Nat) :
      Step.number ⟨x.2 + 1, x.1.name, x.1.outcome, x.1.detail⟩ = 1 + x.2 := Nat.add_comm ..
  calc (Step.numbered entries).map Step.number
      = (entries.zipIdx.map Prod.snd).map (1 + ·) := by
        rw [Step.numbered, List.map_map, List.map_map]
        exact List.map_congr_left fun x _ => hnumber x
    _ = List.range' 1 entries.length := by rw [List.zipIdx_map_snd, List.map_add_range']
    _ = List.range' 1 (Step.numbered entries).length := by
        rw [Step.numbered, List.length_map, List.length_zipIdx]

theorem numbered_append_singleton (entries : List Entry) (e : Entry) :
    Step.numbered (entries ++ [e]) =
      Step.numbered entries ++ [⟨entries.length + 1, e.name, e.outcome, e.detail⟩] := by
  simp [Step.numbered, List.zipIdx_append]

theorem entry_mem_of_numbered {entries : List Entry} {step : Step}
    (h : step ∈ Step.numbered entries) : step.entry ∈ entries :=
  entries_numbered entries ▸ List.mem_map_of_mem h

/-- Steps are picked by what stands in their entries. -/
theorem map_entry_filter (entries : List Entry) (f : Entry → Bool) :
    ((Step.numbered entries).filter (f ·.entry)).map Step.entry = entries.filter f := by
  have hmap := List.filter_map (p := f) (f := Step.entry) (l := Step.numbered entries)
  rw [entries_numbered] at hmap
  exact hmap.symm

theorem scoreEntry_recorded_iff (score : Option Float) :
    (Strategy.scoreEntry score).outcome = .recorded ↔ score.isSome := by
  cases score <;> simp [Strategy.scoreEntry]

namespace Verdict
variable {v : Verdict}

/-- All entries of an execution. -/
def allEntries (v : Verdict) (params : Dict Value) : List Entry :=
  paramEntries params ++ v.entries ++ [v.decisionEntry]

theorem name_of_mem_paramEntries {params : Dict Value} {e : Entry} (h : e ∈ paramEntries params) :
    e.name = "routing_params" := by
  unfold paramEntries at h
  split at h
  · cases h
  · rw [List.mem_singleton.1 h]

/-- The entries at the ends are no rule's. -/
theorem Faithful.rules (h : v.Faithful) (params : Dict Value) :
    List.Forall₂ Entry.Reports ((v.allEntries params).filter Entry.isOfRule) v.results := by
  have hparams : (paramEntries params).filter Entry.isOfRule = [] := by
    refine filter_isOfRule_eq_nil fun e he => ?_
    rw [name_of_mem_paramEntries he]
    decide
  have hdecision : [v.decisionEntry].filter Entry.isOfRule = [] :=
    filter_isOfRule_eq_nil (List.forall_mem_singleton.2 (show "decision" ∈ _ by decide))
  rw [allEntries, List.filter_append, List.filter_append, hparams, hdecision, List.nil_append,
    List.append_nil]
  exact h.recorded.rules

theorem named_allEntries (v : Verdict) (params : Dict Value) :
    named "score" (v.allEntries params) = named "score" v.entries := by
  rw [allEntries, named_append, named_append, (unscored_paramEntries params).named_eq,
    (unscored_decisionEntry v).named_eq, List.nil_append, List.append_nil]

/-- Either no score is recorded and there is none, or the score is recorded. -/
theorem Faithful.score_cases (h : v.Faithful) :
    (v.score = none ∧ v.band = none ∧ named "score" v.entries = []) ∨
      ((v.score = none → v.band = none) ∧
        named "score" v.entries = [Strategy.scoreEntry v.score]) := by
  cases h.asks with
  | never score band steps => exact .inl ⟨score, band, steps⟩
  | once _ band steps => exact .inr ⟨band, steps.trans (Strategy.named_scoreEntry v.score)⟩

/-- Nothing but parameters comes under the name of parameters. -/
theorem Faithful.head_name (h : v.Faithful) (params : Dict Value) :
    (v.allEntries params).head?.map Entry.name = some "routing_params" ↔ params ≠ [] := by
  unfold allEntries paramEntries
  cases params with
  | cons m rest => simp
  | nil =>
    cases hentries : v.entries with
    | nil => simp [decisionEntry]
    | cons e rest =>
      have hname : e.name ∉ outerSteps := h.recorded.inner e (hentries ▸ List.mem_cons_self ..)
      have hother : e.name ≠ "routing_params" := fun heq => hname (heq ▸ List.mem_cons_self ..)
      simpa using hother

/-- **Faithful entries make traced outcomes.** -/
theorem Faithful.traced (h : v.Faithful) (target : Target) (version : Option UInt32)
    (mode : Option Mode) (params : Dict Value) :
    (v.outcome target version mode params).Traced params := by
  have hscored : ((v.outcome target version mode params).steps.filter (·.name = "score")).map
      Step.entry = named "score" v.entries := by
    rw [← v.named_allEntries params]
    exact map_entry_filter _ fun e => e.name = "score"
  refine ⟨number_numbered _, ?params, ?decision, ?rules, ?scoredOnce, ?score, ?band⟩
  case params =>
    have hhead := congrArg (·.head?.map Entry.name) (entries_numbered (v.allEntries params))
    rw [List.head?_map, Option.map_map] at hhead
    rw [← h.head_name params, ← hhead]
    rfl
  case decision =>
    refine ⟨_, _, numbered_append_singleton _ _, rfl, rfl, fun step hstep => ?_⟩
    rcases List.mem_append.1 (entry_mem_of_numbered hstep) with hparam | hentry
    · have hname : step.name = "routing_params" := name_of_mem_paramEntries hparam
      rw [hname]
      decide
    · intro hname
      have hname : step.entry.name = "decision" := hname
      refine h.recorded.inner _ hentry ?_
      rw [hname]
      decide
  case rules =>
    rw [← List.forall₂_map_left_iff (f := Step.entry)]
    have hrules := h.rules params
    rwa [← map_entry_filter] at hrules
  case scoredOnce =>
    rw [← List.length_map (f := Step.entry), hscored]
    rcases h.score_cases with ⟨_, _, hnone⟩ | ⟨_, hone⟩
    · rw [hnone]
      exact Nat.zero_le 1
    · rw [hone]
      exact Nat.le_refl 1
  case score =>
    have hexists : (∃ step ∈ (v.outcome target version mode params).steps,
        step.name = "score" ∧ step.outcome = .recorded) ↔
        ∃ e ∈ named "score" v.entries, e.outcome = .recorded := by
      rw [← hscored]
      simp [Step.entry, and_assoc]
    rw [hexists]
    rcases h.score_cases with ⟨hscore, _, hnone⟩ | ⟨_, hone⟩
    · have hoscore : (v.outcome target version mode params).score = none := hscore
      simp [hoscore, hnone]
    · simp only [hone, List.mem_singleton, exists_eq_left, scoreEntry_recorded_iff]
      rfl
  case band =>
    intro hband
    have hnot : v.band ≠ none := Option.isSome_iff_ne_none.1 hband
    rcases h.score_cases with ⟨_, hnone, _⟩ | ⟨hband', _⟩
    · exact absurd hnone hnot
    · exact Option.isSome_iff_ne_none.2 fun hscore => hnot (hband' hscore)

end Verdict

/-! ### Execution -/

/-- **The steps of an execution are complete and faithful.** They are numbered from one; they begin
with the parameters, if there are any, and end with the decision; the steps of rules tell of the
results one by one; and the score and the band are there only if a step records the score. -/
theorem execution_traced :
    (∀ (s : Strategy) (catalog : Catalog) (card : Scorecard) (p : Applicant) (params : Dict Value)
      (o : Outcome), s.execute catalog card p params = .ok o → o.Traced params) ∧
    ∀ (a : Assessment) (p : Applicant) (params : Dict Value) (o : Outcome),
      a.execute p params = .ok o → o.Traced params := by
  constructor
  · intro s catalog card p params o ho
    cases (then_ok_iff.1 ho).2
    exact (s.faithful_verdict catalog card p).traced ..
  · intro a p params o ho
    cases (then_ok_iff.1 ho).2
    exact (a.faithful_verdict p).traced ..

/-- The overlay rule of the small dual path on its own. -/
def termCheck : Assessment :=
  ⟨"term_check", none, Strategy.lendingPath.overlays⟩

/-- Behind its gate the small dual path stops at the overlay rules: the score is recorded, the bands
are not reached. -/
theorem execution_traced_gatedPath :
    (∃ o, Strategy.gatedPath.execute .standard (.fixed (some 640)) Strategy.indebted
        [("channel", .text "web")] = .ok o ∧
      o.Traced [("channel", .text "web")] ∧ o.score.isSome ∧ o.band = none ∧
      o.steps.map Step.name = ["routing_params", "score", "score_gate", "knock_out:min_age",
        "knock_out:max_dti", "overlay:term", "overlay", "decision"]) ∧
    ∃ o, termCheck.execute Strategy.indebted [] = .ok o ∧ o.Traced [] ∧
      o.steps.map Step.name = ["rule:term", "decision"] := by
  obtain ⟨hstrategies, hassessments⟩ := execution_traced
  constructor
  · have hvalid : Strategy.gatedPath.validate = .ok () := by rfl
    have ho := (Strategy.validate_ok_iff.1 hvalid).execute_eq .standard (.fixed (some 640))
      Strategy.indebted [("channel", .text "web")]
    exact ⟨_, ho, hstrategies _ _ _ _ _ _ ho, rfl, by decide +kernel, by decide +kernel⟩
  · have hvalid : termCheck.validate = .ok () := by rfl
    have ho : termCheck.execute Strategy.indebted [] = .ok _ := then_ok_iff.2 ⟨hvalid, rfl⟩
    exact ⟨_, ho, hassessments _ _ _ _ ho, by decide +kernel⟩

end Lending
