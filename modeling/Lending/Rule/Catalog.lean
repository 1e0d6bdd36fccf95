import Lending.PolicyError
import Lending.Rule.Evaluation
import Lending.Warning

/-! The rule catalog: the standard rules with a policy's changes.

Overrides replace parts of standard rules; custom rules take the place of the rule with their
id or come after the others. Ids are unique in what goes in, so they are in what comes out. -/
namespace Lending

/-- No two rules have one id. -/
def requireUnique (rules : List Rule) : Except PolicyError Unit :=
  match Text.firstRepeat? [] (rules.map Rule.id) with
  | some id => .error (.duplicateRule id)
  | none => .ok ()

/-- The rules in force. -/
structure Catalog where
  rules : List Rule

namespace Catalog

def ofRules (rules : List Rule) : Except PolicyError Catalog := do
  requireUnique rules
  return ⟨rules⟩

/-- Changes the rule of an id. -/
def modify (rules : List Rule) (id : String) (f : Rule → Rule) : List Rule :=
  rules.map fun r => if r.id = id then f r else r

/-- Puts a rule in the place of the rule with its id, or at the end. -/
def place (rules : List Rule) (rule : Rule) : List Rule :=
  if rules.any (·.id == rule.id) then modify rules rule.id fun _ => rule else rules ++ [rule]

/-- The standard rules with overrides by rule id and custom rules. -/
def resolve (standard : List Rule) (overrides : Dict RuleOverride) (custom : List Rule) :
    Except PolicyError Catalog := do
  requireUnique standard
  requireUnique custom
  let changed := overrides.foldl (fun rules o => modify rules o.1 o.2.apply) standard
  return ⟨custom.foldl place changed⟩

/-- What overrides ask for and do not get. -/
def overrideWarnings (standard : List Rule) (overrides : Dict RuleOverride) : List Warning :=
  overrides.filterMap fun (id, o) =>
    match standard.find? (·.id == id) with
    | none => some (.overrideIgnored id)
    | some r => if o.fits r then none else some (.thresholdIgnored id)

/-- Resolution with its warnings. -/
def resolveNoted (standard : List Rule) (overrides : Dict RuleOverride) (custom : List Rule) :
    Noted PolicyError Catalog := do
  let catalog ← Noted.ofExcept (resolve standard overrides custom)
  Noted.warn (overrideWarnings standard overrides)
  return catalog

def get? (c : Catalog) (id : String) : Option Rule :=
  c.rules.find? (·.id == id)

/-! ### The standard rules -/

/-- The baseline policy for consumer loans, in the order of evaluation. -/
def standardRules : List Rule :=
  [ .stored "min_credit_score" "Minimum credit score" "credit_score" .gte (.number 580) .hard,
    .stored "max_dti" "Maximum debt-to-income ratio" "dti_ratio" .lte (.number 0.45) .hard,
    .stored "min_monthly_income" "Minimum monthly income" "monthly_income" .gte (.number 300) .hard,
    .stored "min_age" "Minimum applicant age" "age" .gte (.number 18) .hard,
    .stored "max_age" "Maximum applicant age" "age" .lte (.number 70) .hard,
    { Rule.computed "max_maturity_age" "Maximum age at loan maturity" .maturityAge .lte (.number 75)
        .hard with
      description := some "Applicant age plus loan term must not exceed 75 years" },
    .computed "min_employment_months" "Minimum employment tenure" .employmentMonths .gte (.number 6)
      .refer,
    .stored "national_id_verified" "National ID verified" "national_id_verified" .eq
      (.scalar (.flag true)) .hard,
    .stored "employment_status_eligible" "Employment status eligible" "employment_status" .noneOf
      (.list [.text "unemployed"]) .hard,
    .stored "loan_term_band" "Loan term within product limits" "term_months" .between (.range 3 60)
      .hard,
    .stored "max_loan_amount" "Maximum loan amount" "loan_amount" .lte (.number 50000) .refer,
    .stored "max_recent_delinquencies" "Delinquencies in the last 12 months" "delinquencies_12m" .lte
      (.number 2) .refer,
    .stored "no_bankruptcies" "No bankruptcies on file" "bankruptcies" .eq (.number 0) .hard ]

def standard : Catalog :=
  ⟨standardRules⟩

end Catalog

/-! ### Warnings of an evaluation -/

/-- A rule that names a field no applicant has, or whose threshold does not suit its operator. -/
def RuleResult.warning? (r : RuleResult) : Option Warning :=
  match r.skipped with
  | some .malformedThreshold => some (.ruleSkipped r.ruleId r.message)
  | some .fieldNotAvailable =>
    if r.operator.isSome && (Attribute.ofName? r.field : Option RuleField).isNone then
      some (.unknownRuleField r.ruleId r.field)
    else none
  | _ => none

def ruleWarnings (results : List RuleResult) : List Warning :=
  results.filterMap RuleResult.warning?

end Lending
