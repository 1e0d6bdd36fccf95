import Lending.Record

/-! The applicant's record: what rules read. -/
namespace Lending

inductive ApplicantAttribute where
  /-- The bureau's credit score. -/
  | creditScore
  /-- Debt to income, 0.35 for 35 percent. -/
  | dtiRatio
  | monthlyIncome
  | annualIncome
  | age
  | yearsEmployed
  | employmentStatus
  | loanAmount
  | termMonths
  | nationalIdVerified
  | existingMonthlyDebt
  | delinquencies12m
  | bankruptcies
  | bureauInquiries6m
  | openCreditLines
  | residenceYears
  | loanPurpose
  | productType
  | isExistingCustomer
  /-- The score that came with the application. -/
  | applicationScore
  deriving DecidableEq, Repr

namespace ApplicantAttribute

/-- Name and kind of each attribute. -/
def column : ApplicantAttribute → String × Kind
  | creditScore => ("credit_score", .number)
  | dtiRatio => ("dti_ratio", .number)
  | monthlyIncome => ("monthly_income", .number)
  | annualIncome => ("annual_income", .number)
  | age => ("age", .number)
  | yearsEmployed => ("years_employed", .number)
  | employmentStatus => ("employment_status", .text)
  | loanAmount => ("loan_amount", .number)
  | termMonths => ("term_months", .count)
  | nationalIdVerified => ("national_id_verified", .flag)
  | existingMonthlyDebt => ("existing_monthly_debt", .number)
  | delinquencies12m => ("delinquencies_12m", .count)
  | bankruptcies => ("bankruptcies", .count)
  | bureauInquiries6m => ("bureau_inquiries_6m", .count)
  | openCreditLines => ("open_credit_lines", .count)
  | residenceYears => ("residence_years", .number)
  | loanPurpose => ("loan_purpose", .text)
  | productType => ("product_type", .text)
  | isExistingCustomer => ("is_existing_customer", .flag)
  | applicationScore => ("application_score", .number)

instance : StoredAttributes ApplicantAttribute where
  decEq := inferInstance
  all :=
    [creditScore, dtiRatio, monthlyIncome, annualIncome, age, yearsEmployed, employmentStatus,
      loanAmount, termMonths, nationalIdVerified, existingMonthlyDebt, delinquencies12m,
      bankruptcies, bureauInquiries6m, openCreditLines, residenceYears, loanPurpose, productType,
      isExistingCustomer, applicationScore]
  name a := a.column.1
  kind a := a.column.2

end ApplicantAttribute

abbrev Applicant := Record ApplicantAttribute

/-- What is computed from an applicant's record. -/
inductive ComputedField where
  | employmentMonths
  | maturityAge
  deriving DecidableEq, Repr

namespace Applicant

def age (p : Applicant) : Option Float :=
  p.get .age

def termMonths (p : Applicant) : Option UInt32 :=
  p.get .termMonths

def yearsEmployed (p : Applicant) : Option Float :=
  p.get .yearsEmployed

def applicationScore (p : Applicant) : Option Float :=
  p.get .applicationScore

/-- The time in employment, in months. -/
def employmentMonths (p : Applicant) : Option Float :=
  p.yearsEmployed.map (· * 12)

/-- The age at the end of the loan's term. -/
def maturityAge (p : Applicant) : Option Float :=
  match p.age, p.termMonths with
  | some age, some term => some (age + term.toFloat / 12)
  | _, _ => none

end Applicant

instance : ComputedAttributes ApplicantAttribute ComputedField where
  all := [.employmentMonths, .maturityAge]
  name
    | .employmentMonths => "employment_months"
    | .maturityAge => "maturity_age"
  value
    | .employmentMonths => Applicant.employmentMonths
    | .maturityAge => Applicant.maturityAge

/-- An attribute that a rule can read. -/
abbrev RuleField := Attribute ApplicantAttribute ComputedField

namespace ComputedField

def all : List ComputedField :=
  [.employmentMonths, .maturityAge]

def name (c : ComputedField) : String :=
  ComputedAttributes.name ApplicantAttribute c

end ComputedField

end Lending
