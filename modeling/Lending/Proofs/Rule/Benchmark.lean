import Lending.Proofs.Matching
import Lending.Proofs.Number.Difference
import Lending.Proofs.Rule.Kinds

/-! Distances from thresholds.

A comparison between numbers says on which side of its threshold a number lies, and the sign of the
distance says so too (`Operator.Allows`). The distance is recorded as a rounded difference, which
has the same sign (`Operator.Admits`). A rule is measured if it was looked at and its one comparison
is between numbers, whatever its operator and however the numbers are written; the benchmarks of a
list of rules are those of its measured rules, in their order (`benchmarks_agree`). -/
namespace Lending

/-! ### Numbers that are compared -/

/-- What the distance from the threshold has to be for the comparison to hold. -/
def Operator.Allows : Operator → ℚ → Prop
  | .gte, d => 0 ≤ d
  | .lte, d => d ≤ 0
  | .gt, d => 0 < d
  | .lt, d => d < 0
  | .eq, d => d = 0
  | .neq, d => d ≠ 0
  | .oneOf, _ | .noneOf, _ | .between, _ => False

/-- The same of a distance that is recorded as a double. -/
def Operator.Admits : Operator → Float → Prop
  | .gte, d => 0 ≤ d
  | .lte, d => d ≤ 0
  | .gt, d => 0 < d
  | .lt, d => d < 0
  | .eq, d => (d == 0) = true
  | .neq, d => (d == 0) = false
  | .oneOf, _ | .noneOf, _ | .between, _ => False

section Numbers
open Number
variable {op : Operator} {x limit : Float}

/-- Rounding a distance does not change what it allows. -/
theorem Operator.admits_iff_allows (hx : x.isFinite = true) (hlimit : limit.isFinite = true) :
    op.Admits (x - limit) ↔ op.Allows (toRat x - toRat limit) := by
  have hside := sided_sub hx hlimit
  cases op with
  | gte => exact hside.nonneg_iff.trans (by rw [Allows, sub_nonneg, sub_nonneg, toRat_le_iff])
  | lte => exact hside.nonpos_iff.trans (by rw [Allows, sub_nonpos, sub_nonpos, toRat_le_iff])
  | gt => exact hside.pos_iff.trans (by rw [Allows, sub_pos, sub_pos, toRat_lt_iff])
  | lt => exact hside.neg_iff.trans (by rw [Allows, sub_neg, sub_neg, toRat_lt_iff])
  | eq => exact hside.beq_zero_iff.trans (by rw [Allows, sub_eq_zero, sub_eq_zero, toRat_eq_iff])
  | neq =>
    rw [Admits, ← Bool.not_eq_true, hside.beq_zero_iff, Allows, Ne, sub_eq_zero, sub_eq_zero,
      toRat_eq_iff]
  | oneOf | noneOf | between => rfl

theorem Operator.orders_iff_allows (hop : op.isOrdering = true) (hx : x.isFinite = true)
    (hlimit : limit.isFinite = true) :
    op.orders x limit = true ↔ op.Allows (toRat x - toRat limit) := by
  cases op with
  | gte => rw [orders, decide_eq_true_iff, le_iff_units hlimit hx, Allows, sub_nonneg, toRat_le_iff]
  | lte => rw [orders, decide_eq_true_iff, le_iff_units hx hlimit, Allows, sub_nonpos, toRat_le_iff]
  | gt => rw [orders, decide_eq_true_iff, lt_iff_units hlimit hx, Allows, sub_pos, toRat_lt_iff]
  | lt => rw [orders, decide_eq_true_iff, lt_iff_units hx hlimit, Allows, sub_neg, toRat_lt_iff]
  | eq | neq | oneOf | noneOf | between => cases hop

theorem Number.beq_iff_toRat (hx : x.isFinite = true) (hlimit : limit.isFinite = true) :
    (x == limit) = true ↔ toRat x - toRat limit = 0 := by
  rw [beq_iff_units hx hlimit, sub_eq_zero, toRat_eq_iff]

end Numbers

namespace Value
variable {a b : Value} {x y : Float}

/-- **Values that are read as numbers match if the numbers are equal**, however they are spelled. -/
theorem agrees_of_numbers (ha : a.number? = some x) (hb : b.number? = some y) :
    a.agrees b = (x == y) := by
  by_cases h : a.text? = none ∨ b.text? = none
  · rw [agrees_of_not_text h, looselyEquals, ha, hb]
  · cases a with
    | text s =>
      cases b with
      | text t =>
        rw [agrees_text_eq, ha, hb]
        by_cases hkeyword : Text.keyword s = Text.keyword t
        · -- Texts of one keyword are one number, and a finite number equals itself.
          have hsame := (Respelled.text hkeyword).number?_eq
          rw [ha, hb, Option.some.injEq] at hsame
          have hself : (x == x) = true :=
            (Number.beq_iff_units (isFinite_of_number? ha) (isFinite_of_number? ha)).2 rfl
          rw [hsame, hself]
          exact congrArg (· || _) hself
        · rw [beq_false_of_ne hkeyword, Bool.or_false]
      | null | flag | number | array | object => exact absurd (.inr rfl) h
    | null | flag | number | array | object => exact absurd (.inl rfl) h

theorem ne_null_of_number? (h : a.number? = some x) : a ≠ .null := by
  rintro rfl
  cases h

end Value

/-- A threshold that is a number is the scalar that is read as it. -/
theorem Threshold.scalar_of_number? {t : Threshold} {limit : Float} (h : t.number? = some limit) :
    ∃ v, t = .scalar v ∧ v.number? = some limit := by
  cases t with
  | scalar v => exact ⟨v, rfl, h⟩
  | range | list => cases h

/-- **A comparison of numbers holds if their distance allows it.** -/
theorem Value.compare_numbers {a : Value} {op : Operator} {t : Threshold} {x limit : Float}
    {passed : Bool} (ha : a.number? = some x) (ht : t.number? = some limit)
    (h : a.compare op t = .ok passed) :
    passed = true ↔ op.Allows (Number.toRat x - Number.toRat limit) := by
  rw [compare_ok_iff (ne_null_of_number? ha)] at h
  have hx := isFinite_of_number? ha
  obtain ⟨v, rfl, hv⟩ := Threshold.scalar_of_number? ht
  have hlimit := isFinite_of_number? hv
  by_cases hop : op.isOrdering = true
  · rw [Operator.holds_ordering hop ht, ha, Except.ok.injEq] at h
    rw [← h]
    exact Operator.orders_iff_allows hop hx hlimit
  cases op with
  | gte | lte | gt | lt => exact absurd rfl hop
  | eq =>
    cases h
    rw [agrees_of_numbers ha hv, beq_self_eq_true, beq_true, Number.beq_iff_toRat hx hlimit]
    rfl
  | neq =>
    cases h
    rw [agrees_of_numbers ha hv, show (Operator.neq == .eq) = false from rfl, beq_false,
      Bool.not_eq_true', ← Bool.not_eq_true, Number.beq_iff_toRat hx hlimit]
    rfl
  | oneOf | noneOf | between => cases h

/-! ### The comparison of a rule -/

/-- An observed value, and what it is compared with. -/
structure Comparison where
  actual : Value
  operator : Operator
  threshold : Threshold

/-- The one comparison that a rule makes, unless it makes several or there is nothing to observe. -/
def Rule.comparison? (r : Rule) (p : Applicant) : Option Comparison :=
  match r.kind with
  | .stored c => (p.lookup c.field).map fun actual => ⟨actual, c.operator, c.threshold⟩
  | .computed field op t => some ⟨p.value (.computed field), op, t⟩
  | .compound _ _ => none

/-- The result records a comparison and what it came to. -/
structure RuleResult.Settles (result : RuleResult) (c : Comparison) : Prop where
  actual : result.actual = c.actual
  threshold : result.threshold = some c.threshold
  passed : c.actual.compare c.operator c.threshold = .ok result.passed

theorem RuleResult.settles_single {r : RuleResult} {field : String} {actual : Option Value}
    {op : Operator} {t : Threshold} (h : (r.single field actual op t).skipped = none) :
    (r.single field actual op t).field = r.field ∧
      ∃ v, actual = some v ∧ (r.single field actual op t).Settles ⟨v, op, t⟩ := by
  unfold single at h ⊢
  cases actual with
  | none => cases h
  | some v =>
    cases hmissing : v.isMissing with
    | true =>
      simp only [hmissing, if_true] at h
      cases h
    | false =>
      simp only [hmissing, Bool.false_eq_true, if_false, compared] at h ⊢
      cases hcompare : v.compare op t with
      | error m =>
        rw [hcompare] at h
        cases h
      | ok passed => exact ⟨rfl, v, rfl, rfl, rfl, hcompare⟩

namespace Rule
variable {r : Rule} {p : Applicant}

theorem isActive_of_evaluated (h : (r.evaluate p).skipped = none) : r.isActive = true := by
  by_contra hoff
  rw [evaluate_inactive (Bool.not_eq_true _ ▸ hoff)] at h
  cases h

/-- A rule of one comparison that was looked at has made it. -/
theorem settles_evaluate (h : (r.evaluate p).skipped = none) (hcompound : r.isCompound = false) :
    r.fields = [(r.evaluate p).field] ∧
      ∃ c, r.comparison? p = some c ∧ (r.evaluate p).Settles c := by
  have hactive := isActive_of_evaluated h
  cases hkind : r.kind with
  | stored c =>
    rw [evaluate_stored hactive hkind] at h ⊢
    obtain ⟨hfield, v, hv, hsettles⟩ := RuleResult.settles_single h
    have hfields : r.fields = [c.field] := by rw [fields, hkind]
    refine ⟨?_, _, ?_, hsettles⟩
    · rw [hfield, blankResult, hfields]
      rfl
    · rw [comparison?, hkind]
      exact congrArg (Option.map _) hv
  | computed field op t =>
    rw [evaluate_computed hactive hkind] at h ⊢
    obtain ⟨hfield, v, hv, hsettles⟩ := RuleResult.settles_single h
    cases hv
    have hfields : r.fields = [field.name] := by rw [fields, hkind]
    refine ⟨?_, _, ?_, hsettles⟩
    · rw [hfield, blankResult, hfields]
      rfl
    · rw [comparison?, hkind]
  | compound logic conditions =>
    rw [isCompound, hkind] at hcompound
    cases hcompound

/-- Several comparisons together are no distance. -/
theorem benchmark?_compound (h : r.isCompound = true) : (r.evaluate p).benchmark? = none := by
  have hthreshold : (r.evaluate p).threshold = none := by
    unfold evaluate
    split
    · rfl
    · cases hkind : r.kind with
      | compound logic conditions =>
        dsimp only
        unfold compoundResult
        split <;> rfl
      | stored | computed =>
        rw [isCompound, hkind] at h
        cases h
  unfold RuleResult.benchmark?
  rw [hthreshold]
  split
  · rfl
  · split
    · next hlimit => cases hlimit
    · rfl

/-! ### Measured rules -/

/-- The rule was looked at, and its one comparison is between numbers. -/
structure Measured (p : Applicant) (r : Rule) : Prop where
  evaluated : (r.evaluate p).skipped = none
  single : r.isCompound = false
  numeric : ∃ c, r.comparison? p = some c ∧ (∃ x, c.actual.number? = some x) ∧
    ∃ limit, c.threshold.number? = some limit

/-- The benchmark gives the numbers that the rule compares, and its distance is on the side of zero
that the rule's result calls for, both exactly and as it is recorded. -/
structure Benchmarks (p : Applicant) (r : Rule) (b : Benchmark) : Prop where
  id : b.ruleId = r.id
  field : r.fields = [b.field]
  margin : b.margin = b.actual - b.threshold
  verdict : ∃ c, r.comparison? p = some c ∧ c.actual.number? = some b.actual ∧
    c.threshold.number? = some b.threshold ∧
    ((r.evaluate p).passed = true ↔
      c.operator.Allows (Number.toRat b.actual - Number.toRat b.threshold)) ∧
    ((r.evaluate p).passed = true ↔ c.operator.Admits b.margin)

theorem benchmark?_of_measured (h : r.Measured p) :
    ∃ b, (r.evaluate p).benchmark? = some b ∧ r.Benchmarks p b := by
  obtain ⟨hfields, c, hc, hsettles⟩ := settles_evaluate h.evaluated h.single
  obtain ⟨c', hc', ⟨x, hx⟩, limit, hlimit⟩ := h.numeric
  cases Option.mem_unique hc hc'
  have hpassed := Value.compare_numbers hx hlimit hsettles.passed
  obtain ⟨v, hv, hnumber⟩ := Threshold.scalar_of_number? hlimit
  have hround : c.operator.Admits (x - limit) ↔ _ :=
    Operator.admits_iff_allows (Value.isFinite_of_number? hx) (Value.isFinite_of_number? hnumber)
  refine ⟨⟨r.id, (r.evaluate p).field, x, limit, x - limit⟩, ?_, rfl, hfields, rfl, c, hc, hx,
    hlimit, hpassed, hpassed.trans hround.symm⟩
  simp [RuleResult.benchmark?, RuleResult.isSkipped, h.evaluated, hsettles.actual,
    hsettles.threshold, hx, hlimit]

theorem benchmark?_eq_none (h : ¬ r.Measured p) : (r.evaluate p).benchmark? = none := by
  cases hcompound : r.isCompound with
  | true => exact benchmark?_compound hcompound
  | false =>
    by_contra hsome
    obtain ⟨b, hb⟩ := Option.ne_none_iff_exists'.1 hsome
    unfold RuleResult.benchmark? at hb
    split at hb
    · cases hb
    · next hlooked =>
      have hevaluated : (r.evaluate p).skipped = none := by
        simpa [RuleResult.isSkipped] using hlooked
      obtain ⟨-, c, hc, hsettles⟩ := settles_evaluate hevaluated hcompound
      rw [hsettles.actual, hsettles.threshold] at hb
      split at hb
      · next x limit hx hlimit =>
        exact h ⟨hevaluated, hcompound, c, hc, ⟨x, hx⟩, limit, hlimit⟩
      · cases hb

/-- Which rules are measured is seen from their results. -/
instance (p : Applicant) (r : Rule) : Decidable (r.Measured p) :=
  decidable_of_iff ((r.evaluate p).benchmark?.isSome = true) <| by
    constructor
    · intro h
      by_contra hnot
      rw [benchmark?_eq_none hnot] at h
      cases h
    · intro h
      obtain ⟨b, hb, -⟩ := benchmark?_of_measured h
      rw [hb]
      rfl

end Rule

/-! ### A list of rules -/

/-- The items that give something are those that pass a test, and each gives what it should. -/
theorem forall₂_filter_filterMap {α β : Type} {R : α → β → Prop} {f : α → Option β} {P : α → Prop}
    [DecidablePred P] (hsome : ∀ a, P a → ∃ b, f a = some b ∧ R a b)
    (hnone : ∀ a, ¬ P a → f a = none) (items : List α) :
    List.Forall₂ R (items.filter P) (items.filterMap f) := by
  induction items with
  | nil => exact .nil
  | cons a rest ih =>
    by_cases h : P a
    · obtain ⟨b, hb, hR⟩ := hsome a h
      rw [List.filter_cons_of_pos (by simpa using h), List.filterMap_cons_some hb]
      exact .cons hR ih
    · rw [List.filter_cons_of_neg (by simpa using h), List.filterMap_cons_none (hnone a h)]
      exact ih

/-- **Benchmarks agree with verdicts.** A list of rules has one benchmark for each rule that was
looked at and compares a number with a number, in the order of the rules, and no other. The rule
passed exactly if the distance is on the side of zero that its operator asks for. -/
theorem benchmarks_agree (p : Applicant) (rules : List Rule) :
    List.Forall₂ (Rule.Benchmarks p) (rules.filter (·.Measured p))
      (evaluateRules p rules).benchmarks := by
  have hbenchmarks : (evaluateRules p rules).benchmarks =
      rules.filterMap fun r => (r.evaluate p).benchmark? := List.filterMap_map
  rw [hbenchmarks]
  exact forall₂_filter_filterMap (fun _ => Rule.benchmark?_of_measured)
    (fun _ => Rule.benchmark?_eq_none) rules

end Lending
