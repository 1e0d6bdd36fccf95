import Lending.Proofs.Strategy.Trace

/-! Sequential strategies beside assessments.

A sequential strategy decides by the rules of the catalog, an assessment by rules of its own. Over
the same rules the two come to one verdict but for the codes that the strategy has for its reasons
(`verdict_sequential`). What a code changes of a verdict shows in the reasons and in the text of the
last step, which lists them. -/
namespace Lending

/-- The verdict with its reasons under codes. -/
def Verdict.recoded (v : Verdict) (code : String → String) : Verdict :=
  { v with reasons := v.reasons.map code }

/-- Two outcomes of one evaluation, of which the first reports its reasons under codes. -/
structure Outcome.Recodes (code : String → String) (o o' : Outcome) : Prop where
  decision : o.decision = o'.decision
  results : o.results = o'.results
  reasons : o.reasons = o'.reasons.map code
  /-- Steps differ in nothing but the detail of the last one. -/
  steps : ∃ before last last', o.steps = before ++ [last] ∧ o'.steps = before ++ [last'] ∧
    last = { last' with detail := last.detail } ∧ last.name = "decision"
  /-- There is no difference where the reasons have no codes of their own. -/
  uncoded : (∀ id ∈ o'.reasons, code id = id) → o.steps = o'.steps

namespace Verdict

theorem recodes_outcome (v : Verdict) (code : String → String) (target target' : Target)
    (version version' : Option UInt32) (mode mode' : Option Mode) (params : Dict Value) :
    ((v.recoded code).outcome target version mode params).Recodes code
      (v.outcome target' version' mode' params) where
  decision := rfl
  results := rfl
  reasons := rfl
  steps := ⟨_, _, _, numbered_append_singleton _ _, numbered_append_singleton _ _, rfl, rfl⟩
  uncoded h := by
    have hreasons : v.reasons.map code = v.reasons :=
      (List.map_congr_left h).trans (List.map_id' v.reasons)
    have hsame : v.recoded code = v := by rw [recoded, hreasons]
    rw [hsame]
    rfl

end Verdict

theorem Assessment.execute_eq {a : Assessment} (h : (a.rules.map Rule.id).Nodup) (p : Applicant)
    (params : Dict Value) : a.execute p params =
      .ok ((a.verdict p).outcome (.assessment a.id) none none params) :=
  then_ok_iff.2 ⟨requireUnique_ok_iff.2 h, rfl⟩

namespace Strategy
variable {s : Strategy} {a : Assessment} {catalog : Catalog}

theorem verdict_sequential (hmode : s.mode = .sequential) (hrules : a.rules = catalog.rules)
    (card : Scorecard) (p : Applicant) :
    s.verdict catalog card p = (a.verdict p).recoded s.reasonCode := by
  rw [verdict, hmode, Assessment.verdict, hrules]
  rfl

/-- **A sequential strategy evaluates as an assessment does.** Over the same rules both are
executed, decide alike and leave the same results and steps, up to the codes of the reasons. -/
theorem sequential_assesses (hunique : (catalog.rules.map Rule.id).Nodup)
    (hvalid : s.validate = .ok ()) (hmode : s.mode = .sequential) (hrules : a.rules = catalog.rules)
    (card : Scorecard) (p : Applicant) (params : Dict Value) :
    ∃ o o', s.execute catalog card p params = .ok o ∧ a.execute p params = .ok o' ∧
      o.Recodes s.reasonCode o' := by
  have hexecute := (validate_ok_iff.1 hvalid).execute_eq catalog card p params
  rw [verdict_sequential hmode hrules] at hexecute
  exact ⟨_, _, hexecute, a.execute_eq (hrules ▸ hunique) p params,
    (a.verdict p).recodes_outcome s.reasonCode ..⟩

/-- The catalog's own strategy, with a code for one of the rules. -/
def catalogPath : Strategy :=
  { ofMode "catalog_v1" .sequential with reasonCodes := [("max_dti", "R07")] }

def catalogCheck : Assessment :=
  ⟨"catalog_check", none, Catalog.standardRules⟩

/-- Someone with much debt is declined by both. -/
theorem sequential_assesses_indebted : (Catalog.standard.rules.map Rule.id).Nodup ∧
    catalogPath.validate = .ok () ∧
    ∃ o o', catalogPath.execute .standard .ofApplication indebted [] = .ok o ∧
      catalogCheck.execute indebted [] = .ok o' ∧ o.Recodes catalogPath.reasonCode o' ∧
      o.decision = .decline := by
  have hunique : (Catalog.standard.rules.map Rule.id).Nodup := by decide
  have hvalid : catalogPath.validate = .ok () := by rfl
  obtain ⟨o, o', ho, ho', hrecodes⟩ :=
    sequential_assesses (a := catalogCheck) hunique hvalid rfl rfl .ofApplication indebted []
  refine ⟨hunique, hvalid, o, o', ho, ho', hrecodes, ?_⟩
  cases ho
  decide +kernel

end Strategy

end Lending
