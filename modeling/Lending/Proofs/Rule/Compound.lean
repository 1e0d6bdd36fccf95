import Lending.Proofs.Comparison
import Lending.Proofs.Rule.Aggregate

/-! Rules of several conditions.

A condition is evaluated to a truth value or comes upon an obstacle, and which of the two it is can
be said of the condition and the applicant alone (`Condition.Offends`). The conditions of a rule are
evaluated in turn, and one that comes upon an obstacle is the last. So the first offending condition
is the one that is reported, but whether there is one is a matter of all of them, also of those
behind a condition that would settle the rule. What the conditions come to is joined only where none
offends (`RuleResult.Compounds`). Neither part asks for the order. -/
namespace Lending

/-! ### Conditions that cannot be evaluated -/

namespace Condition

namespace Obstacle

/-- What a rule that comes upon the obstacle is skipped for. -/
def reason : Obstacle → SkipReason
  | unavailable _ => .fieldNotAvailable
  | malformed _ => .malformedThreshold

def message : Obstacle → String
  | unavailable field => s!"field not available: {field}"
  | malformed m => m.message

end Obstacle

/-- No attribute has the name that the condition reads, or there is nothing under it. -/
def Unavailable (c : Condition) (p : Applicant) : Prop :=
  ∀ v, p.lookup c.field = some v → v.isMissing = true

/-- What is in the way of the condition. Its threshold is not looked at where its attribute is not
there. -/
inductive Offends (c : Condition) (p : Applicant) : Obstacle → Prop
  | unavailable (h : c.Unavailable p) : Offends c p (.unavailable c.field)
  | malformed {fault : Threshold.Fault} (hthere : ¬ c.Unavailable p)
      (hfault : c.threshold.Unsuited c.operator fault) :
      Offends c p (.malformed ⟨c.operator, fault⟩)

variable {c : Condition} {p : Applicant} {o : Obstacle}

theorem exists_offends_iff : (∃ o, c.Offends p o) ↔
    c.Unavailable p ∨ ∃ fault, c.threshold.Unsuited c.operator fault := by
  constructor
  · rintro ⟨_, h | ⟨_, hfault⟩⟩
    · exact .inl h
    · exact .inr ⟨_, hfault⟩
  · intro h
    by_cases hmissing : c.Unavailable p
    · exact ⟨_, .unavailable hmissing⟩
    · obtain ⟨fault, hfault⟩ := h.resolve_left hmissing
      exact ⟨_, .malformed hmissing hfault⟩

theorem evaluate_of_unavailable (h : c.Unavailable p) :
    c.evaluate p = .error (.unavailable c.field) := by
  unfold evaluate
  cases hlookup : p.lookup c.field with
  | none => rfl
  | some v => exact if_pos (h v hlookup)

theorem evaluate_of_available (h : ¬ c.Unavailable p) : ∃ v : Value, v ≠ .null ∧
    c.evaluate p = (v.compare c.operator c.threshold).mapError .malformed := by
  unfold Unavailable at h
  push Not at h
  obtain ⟨v, hlookup, hthere⟩ := h
  refine ⟨v, fun hnull => hthere (hnull ▸ rfl), ?_⟩
  rw [evaluate, hlookup]
  exact if_neg hthere

theorem evaluate_error_iff : c.evaluate p = .error o ↔ c.Offends p o := by
  by_cases h : c.Unavailable p
  · rw [evaluate_of_unavailable h]
    constructor
    · rintro ⟨⟩
      exact .unavailable h
    · rintro (_ | ⟨hthere, _⟩)
      · rfl
      · exact absurd h hthere
  · obtain ⟨v, hne, heval⟩ := evaluate_of_available h
    rw [heval, mapError_error_iff]
    simp only [Value.compare_error_iff hne]
    constructor
    · rintro ⟨⟨_, fault⟩, ⟨rfl, hfault⟩, rfl⟩
      exact .malformed h hfault
    · rintro (hmissing | ⟨_, hfault⟩)
      · exact absurd hmissing h
      · exact ⟨_, ⟨rfl, hfault⟩, rfl⟩

theorem exists_yields_iff : (∃ b, c.Yields p b) ↔ ∀ o, ¬ c.Offends p o := by
  simp only [← evaluate_ok_iff, ← evaluate_error_iff]
  cases c.evaluate p with
  | ok b => simp
  | error o => simp

/-- The conditions of a list come upon an obstacle if that is in the way of the first that
offends. -/
theorem evaluateAll_error_iff {conditions : List Condition} :
    conditions.mapM (evaluate · p) = .error o ↔
      ∃ before c after, conditions = before ++ c :: after ∧
        (∀ d ∈ before, ∀ o', ¬ d.Offends p o') ∧ c.Offends p o := by
  simp only [mapM_error_iff, evaluate_ok_iff, evaluate_error_iff, exists_yields_iff]

theorem evaluateAll_ok_iff {conditions : List Condition} {outcomes : List Bool} :
    conditions.mapM (evaluate · p) = .ok outcomes ↔
      List.Forall₂ (fun c b => c.Yields p b) conditions outcomes := by
  simp only [mapM_ok_iff, evaluate_ok_iff]

theorem Yields.unique {b b' : Bool} (h : c.Yields p b) (h' : c.Yields p b') : b = b' :=
  Except.ok.inj ((evaluate_ok_iff.2 h).symm.trans (evaluate_ok_iff.2 h'))

end Condition

/-! ### Joining -/

namespace Logic
variable {α β : Type} {logic : Logic} {P : α → Prop} {items : List α}

/-- All of the items are so, or one of them is. -/
def Joins (logic : Logic) (P : α → Prop) (items : List α) : Prop :=
  match logic with
  | .and => ∀ a ∈ items, P a
  | .or => ∃ a ∈ items, P a

theorem combine_iff {outcomes : List Bool} :
    logic.combine outcomes = true ↔ logic.Joins (· = true) outcomes := by
  cases logic <;> simp [combine, Joins]

theorem joins_perm {items' : List α} (h : items.Perm items') :
    logic.Joins P items ↔ logic.Joins P items' := by
  cases logic <;> simp only [Joins, h.mem_iff]

theorem joins_congr {R : α → β → Prop} {Q : β → Prop} {items' : List β}
    (h : List.Forall₂ R items items') (hPQ : ∀ a b, R a b → (P a ↔ Q b)) :
    logic.Joins P items ↔ logic.Joins Q items' := by
  induction h with
  | nil => cases logic <;> simp [Joins]
  | cons hab _ ih =>
    cases logic with
    | and => simpa only [Joins, List.forall_mem_cons, hPQ _ _ hab] using and_congr_right fun _ => ih
    | or => simpa only [Joins, List.exists_mem_cons_iff, hPQ _ _ hab] using or_congr_right ih

end Logic

/-! ### Results -/

namespace RuleResult
variable {p : Applicant} {logic : Logic} {conditions : List Condition} {result : RuleResult}

/-- The result says what the comparisons came to, or what they came upon. -/
inductive Follows (result : RuleResult) : Except Condition.Obstacle Bool → Prop
  | settled {b : Bool} (passed : result.passed = b) (skipped : result.skipped = none) :
      Follows result (.ok b)
  | stopped {o : Condition.Obstacle} (passed : result.passed = true)
      (skipped : result.skipped = some o.reason) (message : result.message = o.message) :
      Follows result (.error o)

/-- What the result of a rule with several conditions says. -/
structure Compounds (result : RuleResult) (p : Applicant) (logic : Logic)
    (conditions : List Condition) : Prop where
  /-- One of the conditions offends, wherever it stands. -/
  skipped_iff : result.isSkipped = true ↔
    ∃ c ∈ conditions, c.Unavailable p ∨ ∃ fault, c.threshold.Unsuited c.operator fault
  lenient : result.isSkipped = true → result.passed = true
  /-- The rule is skipped for the first that offends. -/
  first : ∀ before c after o, conditions = before ++ c :: after →
    (∀ d ∈ before, ∀ o', ¬ d.Offends p o') → c.Offends p o →
    result.skipped = some o.reason ∧ result.message = o.message
  settled : result.isSkipped = false → (∀ c ∈ conditions, ∃ b, c.Yields p b) ∧
    (result.passed = true ↔ logic.Joins (fun c => c.Yields p true) conditions)

theorem follows_compoundResult {r : RuleResult} (hpassed : r.passed = true)
    (hskipped : r.skipped = none) (p : Applicant) (logic : Logic) (conditions : List Condition) :
    (Rule.compoundResult r p logic conditions).Follows
      ((conditions.mapM (Condition.evaluate · p)).map logic.combine) := by
  unfold Rule.compoundResult
  cases conditions.mapM (Condition.evaluate · p) with
  | ok outcomes => exact .settled rfl hskipped
  | error o =>
    cases o with
    | unavailable field => exact .stopped hpassed rfl rfl
    | malformed m => exact .stopped hpassed rfl rfl

theorem compounds_of_stopped {o : Condition.Obstacle} (h : result.Follows (.error o))
    (heval : conditions.mapM (Condition.evaluate · p) = .error o) :
    result.Compounds p logic conditions := by
  cases h with
  | stopped hpassed hskipped hmessage =>
    have hisSkipped : result.isSkipped = true := by rw [isSkipped, hskipped]; rfl
    obtain ⟨before, c, after, hsplit, -, hoffends⟩ := Condition.evaluateAll_error_iff.1 heval
    have hc : c ∈ conditions := by simp [hsplit]
    constructor
    case skipped_iff =>
      exact ⟨fun _ => ⟨c, hc, Condition.exists_offends_iff.1 ⟨o, hoffends⟩⟩, fun _ => hisSkipped⟩
    case lenient => exact fun _ => hpassed
    case first =>
      intro before' c' after' o' hsplit' hbefore' hoffends'
      have heval' := Condition.evaluateAll_error_iff.2
        ⟨before', c', after', hsplit', hbefore', hoffends'⟩
      cases heval.symm.trans heval'
      exact ⟨hskipped, hmessage⟩
    case settled => exact fun hnot => absurd hisSkipped (Bool.eq_false_iff.1 hnot)

theorem compounds_of_settled {outcomes : List Bool}
    (h : result.Follows (.ok (logic.combine outcomes)))
    (heval : conditions.mapM (Condition.evaluate · p) = .ok outcomes) :
    result.Compounds p logic conditions := by
  cases h with
  | settled hpassed hskipped =>
    have hnotSkipped : ¬ result.isSkipped = true := by simp [isSkipped, hskipped]
    have hyields := Condition.evaluateAll_ok_iff.1 heval
    have hevery : ∀ c ∈ conditions, ∃ b, c.Yields p b :=
      ((List.forall₂_and_left _ _).1 (hyields.imp fun c b hb => ⟨⟨b, hb⟩, hb⟩)).1
    have hnone : ∀ c ∈ conditions, ∀ o, ¬ c.Offends p o := fun c hc =>
      Condition.exists_yields_iff.1 (hevery c hc)
    constructor
    case skipped_iff =>
      constructor
      · exact fun hskip => absurd hskip hnotSkipped
      · rintro ⟨c, hc, hoffends⟩
        obtain ⟨o, ho⟩ := Condition.exists_offends_iff.2 hoffends
        exact absurd ho (hnone c hc o)
    case lenient => exact fun hskip => absurd hskip hnotSkipped
    case first =>
      intro before c after o hsplit _ ho
      exact absurd ho (hnone c (by simp [hsplit]) o)
    case settled =>
      intro _
      refine ⟨hevery, ?_⟩
      rw [hpassed, Logic.combine_iff]
      refine (Logic.joins_congr hyields fun c b hb => ?_).symm
      exact ⟨fun htrue => hb.unique htrue, fun htrue => htrue ▸ hb⟩

theorem compounds_of_follows (h : result.Follows
    ((conditions.mapM (Condition.evaluate · p)).map logic.combine)) :
    result.Compounds p logic conditions := by
  cases heval : conditions.mapM (Condition.evaluate · p) with
  | ok outcomes =>
    rw [heval] at h
    exact compounds_of_settled h heval
  | error o =>
    rw [heval] at h
    exact compounds_of_stopped h heval

/-- Results of the same conditions in another order differ at most in what they are skipped for. -/
theorem Compounds.perm {result' : RuleResult} {conditions' : List Condition}
    (h : result.Compounds p logic conditions) (h' : result'.Compounds p logic conditions')
    (hperm : conditions.Perm conditions') :
    result'.passed = result.passed ∧ result'.isSkipped = result.isSkipped := by
  have hskips : result'.isSkipped = result.isSkipped := by
    rw [Bool.eq_iff_iff, h.skipped_iff, h'.skipped_iff]
    simp only [hperm.mem_iff]
  refine ⟨?_, hskips⟩
  cases hskip : result.isSkipped with
  | true => rw [h.lenient hskip, h'.lenient (hskips.trans hskip)]
  | false =>
    rw [Bool.eq_iff_iff, (h.settled hskip).2, (h'.settled (hskips.trans hskip)).2,
      Logic.joins_perm hperm]

end RuleResult

namespace Rule
variable {r : Rule} {logic : Logic} {conditions : List Condition}

theorem follows_compound (hactive : r.isActive = true) (hkind : r.kind = .compound logic conditions)
    (p : Applicant) : (r.evaluate p).Follows
      ((conditions.mapM (Condition.evaluate · p)).map logic.combine) := by
  rw [evaluate, hactive, hkind]
  exact RuleResult.follows_compoundResult rfl rfl p logic conditions

/-- **Several conditions are one question.** A rule of several conditions is skipped, and counts as
passed, if one of them offends, wherever it stands; it is skipped for the first. Otherwise it passes
if all conditions hold, or one. So the order of the conditions decides nothing but what the rule is
skipped for. -/
theorem compound_evaluates (hactive : r.isActive = true)
    (hkind : r.kind = .compound logic conditions) (p : Applicant) :
    (r.evaluate p).Compounds p logic conditions ∧
      ∀ conditions' : List Condition, conditions.Perm conditions' →
        (evaluate { r with kind := .compound logic conditions' } p).passed =
            (r.evaluate p).passed ∧
          (evaluate { r with kind := .compound logic conditions' } p).isSkipped =
            (r.evaluate p).isSkipped := by
  have h := RuleResult.compounds_of_follows (follows_compound hactive hkind p)
  refine ⟨h, fun conditions' hperm => ?_⟩
  have hactive' : isActive { r with kind := .compound logic conditions' } = true := hactive
  exact h.perm (RuleResult.compounds_of_follows (follows_compound hactive' rfl p)) hperm

end Rule

def incomeCondition : Condition :=
  ⟨"monthly_income", .gte, .number 3000⟩

def scoreCondition : Condition :=
  ⟨"credit_score", .gte, .number 650⟩

def meansRule : Rule :=
  .ofKind "means" "Income or score" (.compound .or [incomeCondition, scoreCondition]) .hard

def unratedEarner : Applicant :=
  (Record.empty : Applicant).put .monthlyIncome (some (4000 : Float))

/-- The income would do, but there is no score, and the rule is skipped for it; also if it asks for
the score first. -/
theorem Rule.compound_evaluates_unrated :
    incomeCondition.Yields unratedEarner true ∧
      (meansRule.evaluate unratedEarner).skipped = some .fieldNotAvailable ∧
      (meansRule.evaluate unratedEarner).message = "field not available: credit_score" ∧
      (Rule.evaluate { meansRule with kind := .compound .or [scoreCondition, incomeCondition] }
        unratedEarner).isSkipped = true := by
  obtain ⟨hcompounds, hperm⟩ := Rule.compound_evaluates (r := meansRule) rfl rfl unratedEarner
  have hyields : incomeCondition.Yields unratedEarner true :=
    ⟨.number 4000, by rfl, rfl, by decide +kernel⟩
  have hlookup : unratedEarner.lookup scoreCondition.field = some .null := by rfl
  have hmissing : scoreCondition.Unavailable unratedEarner := by
    intro v hv
    cases hlookup.symm.trans hv
    rfl
  obtain ⟨hskipped, hmessage⟩ := hcompounds.first [incomeCondition] scoreCondition [] _ rfl
    (List.forall_mem_singleton.2 (Condition.exists_yields_iff.1 ⟨true, hyields⟩))
    (.unavailable hmissing)
  refine ⟨hyields, hskipped, hmessage, (hperm _ (.swap ..)).2.trans ?_⟩
  rw [RuleResult.isSkipped, hskipped]
  rfl

end Lending
