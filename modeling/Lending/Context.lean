import Lending.Record

/-! The routing context: what decision trees branch on. It is put together once for each
decision from the application, the borrower's profile, the bureau's report, the scorecards
and the merchant. -/
namespace Lending

inductive ContextAttribute where
  | isExistingCustomer
  | relationshipMonths
  | priorLoansCount
  | priorLoansRepaid
  | activeLoansCount
  | maxDaysPastDue
  | monthsSinceLastLoan
  | loanAmount
  | termMonths
  | productType
  | loanPurpose
  | channel
  | isRefinance
  | downPaymentRatio
  | age
  | employmentStatus
  | employmentType
  | monthlyIncome
  | yearsEmployed
  | residenceType
  | region
  | maritalStatus
  | dependents
  | nationalIdVerified
  | bureauHit
  | bureauScore
  | thinFile
  | creditHistoryMonths
  | inquiries6m
  | delinquencies12m
  | bankruptcies
  | totalOutstandingDebt
  | dtiRatio
  | applicationScore
  | behaviorScore
  | scoreBand
  | probabilityOfDefault
  | merchantId
  | merchantCategory
  | merchantTier
  | merchantRiskRating
  | merchantDefaultRate
  deriving DecidableEq, Repr

namespace ContextAttribute

/-- Name and kind of each attribute. -/
def column : ContextAttribute → String × Kind
  | isExistingCustomer => ("is_existing_customer", .flag)
  | relationshipMonths => ("relationship_months", .count)
  | priorLoansCount => ("prior_loans_count", .count)
  | priorLoansRepaid => ("prior_loans_repaid", .count)
  | activeLoansCount => ("active_loans_count", .count)
  | maxDaysPastDue => ("max_days_past_due", .count)
  | monthsSinceLastLoan => ("months_since_last_loan", .count)
  | loanAmount => ("loan_amount", .number)
  | termMonths => ("term_months", .count)
  | productType => ("product_type", .text)
  | loanPurpose => ("loan_purpose", .text)
  | channel => ("channel", .text)
  | isRefinance => ("is_refinance", .flag)
  | downPaymentRatio => ("down_payment_ratio", .number)
  | age => ("age", .number)
  | employmentStatus => ("employment_status", .text)
  | employmentType => ("employment_type", .text)
  | monthlyIncome => ("monthly_income", .number)
  | yearsEmployed => ("years_employed", .number)
  | residenceType => ("residence_type", .text)
  | region => ("region", .text)
  | maritalStatus => ("marital_status", .text)
  | dependents => ("dependents", .count)
  | nationalIdVerified => ("national_id_verified", .flag)
  | bureauHit => ("bureau_hit", .flag)
  | bureauScore => ("bureau_score", .number)
  | thinFile => ("thin_file", .flag)
  | creditHistoryMonths => ("credit_history_months", .count)
  | inquiries6m => ("inquiries_6m", .count)
  | delinquencies12m => ("delinquencies_12m", .count)
  | bankruptcies => ("bankruptcies", .count)
  | totalOutstandingDebt => ("total_outstanding_debt", .number)
  | dtiRatio => ("dti_ratio", .number)
  | applicationScore => ("application_score", .number)
  | behaviorScore => ("behavior_score", .number)
  | scoreBand => ("score_band", .text)
  | probabilityOfDefault => ("probability_of_default", .number)
  | merchantId => ("merchant_id", .text)
  | merchantCategory => ("merchant_category", .text)
  | merchantTier => ("merchant_tier", .text)
  | merchantRiskRating => ("merchant_risk_rating", .text)
  | merchantDefaultRate => ("merchant_default_rate", .number)

instance : StoredAttributes ContextAttribute where
  decEq := inferInstance
  all :=
    [isExistingCustomer, relationshipMonths, priorLoansCount, priorLoansRepaid, activeLoansCount,
      maxDaysPastDue, monthsSinceLastLoan, loanAmount, termMonths, productType, loanPurpose,
      channel, isRefinance, downPaymentRatio, age, employmentStatus, employmentType, monthlyIncome,
      yearsEmployed, residenceType, region, maritalStatus, dependents, nationalIdVerified,
      bureauHit, bureauScore, thinFile, creditHistoryMonths, inquiries6m, delinquencies12m,
      bankruptcies, totalOutstandingDebt, dtiRatio, applicationScore, behaviorScore, scoreBand,
      probabilityOfDefault, merchantId, merchantCategory, merchantTier, merchantRiskRating,
      merchantDefaultRate]
  name a := a.column.1
  kind a := a.column.2

end ContextAttribute

abbrev Context := Record ContextAttribute

instance : ComputedAttributes ContextAttribute Empty where
  all := []
  name := nofun
  value := nofun

/-- An attribute that a tree can branch on. -/
abbrev ContextField := Attribute ContextAttribute Empty

end Lending
