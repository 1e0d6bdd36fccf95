import Lending.Proofs.Rule.Failure
import Lending.Proofs.Rule.Resolution
import Lending.Strategy.Execution

/-! Executing strategies.

A valid strategy is executed, whatever the applicant (`Valid.execute_eq`). The rest of the file is
how an outcome is looked at: its answer apart from the way to it, and its steps apart from their
numbers. -/
namespace Lending

/-! ### Valid strategies -/

namespace Strategy

/-- What validating a strategy establishes. -/
structure Valid (s : Strategy) : Prop where
  id : Text.isBlankText s.id = false
  rules : ((s.knockOuts ++ s.overlays).map Rule.id).Nodup
  cutoffs : ∀ c ∈ s.cutoffs, cutoffFault? c = none
  mode : s.modeFault? = none

theorem validate_ok_iff {s : Strategy} : s.validate = .ok () ↔ s.Valid := by
  have hfaults : (s.cutoffs.findSome? cutoffFault? <|> s.modeFault?) = none ↔
      (∀ c ∈ s.cutoffs, cutoffFault? c = none) ∧ s.modeFault? = none := by
    rw [Option.orElse_eq_orElse, Option.orElse_eq_or, Option.or_eq_none_iff,
      List.findSome?_eq_none_iff]
  have hvalid : s.Valid ↔ Text.isBlankText s.id = false ∧
      ((s.knockOuts ++ s.overlays).map Rule.id).Nodup ∧
        (s.cutoffs.findSome? cutoffFault? <|> s.modeFault?) = none := by
    rw [hfaults]
    exact ⟨fun ⟨hid, hrules, hcutoffs, hmode⟩ => ⟨hid, hrules, hcutoffs, hmode⟩,
      fun ⟨hid, hrules, hcutoffs, hmode⟩ => ⟨hid, hrules, hcutoffs, hmode⟩⟩
  rw [hvalid]
  unfold validate
  cases Text.isBlankText s.id with
  | true => simp
  | false =>
    rw [if_neg Bool.false_ne_true, then_ok_iff, requireUnique_ok_iff]
    cases s.cutoffs.findSome? cutoffFault? <|> s.modeFault? <;> simp

variable {s : Strategy}

theorem Valid.execute_eq (h : s.Valid) (catalog : Catalog) (card : Scorecard) (p : Applicant)
    (params : Dict Value) : s.execute catalog card p params =
      .ok ((s.verdict catalog card p).outcome (.strategy s.id) (some s.version) (some s.mode)
        params) :=
  then_ok_iff.2 ⟨validate_ok_iff.2 h, rfl⟩

theorem Valid.knockOuts (h : s.Valid) : (s.knockOuts.map Rule.id).Nodup :=
  (List.nodup_append.1 (List.map_append ▸ h.rules)).1

theorem Valid.overlays (h : s.Valid) : (s.overlays.map Rule.id).Nodup :=
  (List.nodup_append.1 (List.map_append ▸ h.rules)).2.1

end Strategy

/-! ### Steps -/

/-- A step without its number. -/
def Step.entry (s : Step) : Entry :=
  ⟨s.name, s.outcome, s.detail⟩

/-- The name of the step that routing parameters leave. -/
def paramSteps (params : Dict Value) : List String :=
  if params.isEmpty then [] else ["routing_params"]

/-- The names of the steps that rules leave in a stage. -/
def ruleSteps (stage : String) (rules : List Rule) : List String :=
  rules.map fun r => stage ++ ":" ++ r.id

theorem entries_numbered (entries : List Entry) :
    (Step.numbered entries).map Step.entry = entries := by
  rw [Step.numbered, List.map_map]
  exact List.zipIdx_map_fst 0 entries

theorem names_paramEntries (params : Dict Value) :
    (paramEntries params).map Entry.name = paramSteps params := by
  unfold paramEntries paramSteps
  split <;> rfl

theorem names_ruleEntries (stage : String) (rules : List Rule) (p : Applicant) :
    ((rules.map (Rule.evaluate · p)).map (RuleResult.entry stage)).map Entry.name =
      ruleSteps stage rules := by
  simp [ruleSteps, RuleResult.entry, Function.comp_def]

theorem Verdict.entries_outcome (v : Verdict) (target : Target) (version : Option UInt32)
    (mode : Option Mode) (params : Dict Value) :
    (v.outcome target version mode params).steps.map Step.entry =
      paramEntries params ++ v.entries ++ [v.decisionEntry] :=
  entries_numbered _

/-! ### Steps for the score -/

/-- The steps that belong to a score: its own and that of its gate. -/
def scoreSteps : List String := ["score", "score_gate"]

/-- No step in a list belongs to a score. -/
def Unscored (entries : List Entry) : Prop :=
  ∀ e ∈ entries, e.name ∉ scoreSteps

/-- A colon stands between the stage and the id. -/
theorem unscored_ruleEntries (stage : String) (results : List RuleResult) :
    Unscored (results.map (RuleResult.entry stage)) := by
  intro e he hname
  obtain ⟨r, _, rfl⟩ := List.mem_map.1 he
  have hcolon : ':' ∈ (r.entry stage).name.toList := by simp [RuleResult.entry]
  rcases List.mem_cons.1 hname with h | h
  · rw [h] at hcolon
    exact absurd hcolon (by decide)
  · rw [List.mem_singleton.1 h] at hcolon
    exact absurd hcolon (by decide)

theorem unscored_paramEntries (params : Dict Value) : Unscored (paramEntries params) := by
  unfold paramEntries
  split <;> simp [Unscored, scoreSteps]

theorem unscored_decisionEntry (v : Verdict) : Unscored [v.decisionEntry] := by
  simp [Unscored, scoreSteps, Verdict.decisionEntry]

/-- The entries under other names than the given ones. -/
def without (names : List String) (entries : List Entry) : List Entry :=
  entries.filter fun e => e.name ∉ names

@[simp] theorem without_append (names : List String) (entries entries' : List Entry) :
    without names (entries ++ entries') = without names entries ++ without names entries' :=
  List.filter_append ..

theorem Unscored.without_eq {entries : List Entry} (h : Unscored entries) {names : List String}
    (hnames : names ⊆ scoreSteps) : without names entries = entries :=
  List.filter_eq_self.2 fun e he => decide_eq_true (mt (@hnames e.name) (h e he))

theorem Verdict.without_outcome (v : Verdict) {names : List String} (hnames : names ⊆ scoreSteps)
    (target : Target) (version : Option UInt32) (mode : Option Mode) (params : Dict Value) :
    without names ((v.outcome target version mode params).steps.map Step.entry) =
      paramEntries params ++ without names v.entries ++ [v.decisionEntry] := by
  rw [v.entries_outcome, without_append, without_append,
    (unscored_paramEntries params).without_eq hnames,
    (unscored_decisionEntry v).without_eq hnames]

/-! ### Accounts -/

/-- What is answered, apart from how it is come to. -/
structure Answer where
  decision : Decision
  reasons : List String
  score : Option Float
  band : Option String

/-- An answer with the results of the rules that were looked at and the names of the steps. -/
structure Account where
  answer : Answer
  results : List RuleResult
  steps : List String

namespace Account

/-- With the steps that every execution adds: parameters first and the decision last. -/
def within (a : Account) (params : Dict Value) : Account :=
  { a with steps := paramSteps params ++ a.steps ++ ["decision"] }

end Account

def Verdict.account (v : Verdict) : Account :=
  ⟨⟨v.decision, v.reasons, v.score, v.band⟩, v.results, v.entries.map Entry.name⟩

def Outcome.account (o : Outcome) : Account :=
  ⟨⟨o.decision, o.reasons, o.score, o.band⟩, o.results, o.steps.map Step.name⟩

theorem Verdict.account_outcome (v : Verdict) (target : Target) (version : Option UInt32)
    (mode : Option Mode) (params : Dict Value) :
    (v.outcome target version mode params).account = v.account.within params := by
  have hnames := congrArg (List.map Entry.name) (v.entries_outcome target version mode params)
  rw [List.map_map, List.map_append, List.map_append, names_paramEntries] at hnames
  exact congrArg (Account.mk _ _) hnames

end Lending
