import Lending.Proofs.Comparison
import Lending.Proofs.Number.Rank
import Lending.Proofs.Text.Keyword
import Lending.Tree.Branching

/-! Matching.

Values match by number, by truth value or by text, and which of these applies depends on both sides,
so matching is no equivalence: the texts `yes` and `true` both match the truth value and not each
other. It is symmetric all the same (`Value.agrees_comm`), and it sees of a text only its keyword
(`Value.agrees_respelled`). What is decided by matching therefore stays what it was when texts are
respelled on either side: comparisons (`Value.compare_respelled`) and the choice among categories
(`Branching.step_respelled`). -/
namespace Lending

/-! ### Symmetry -/

namespace Number

theorem beq_comm (x y : Float) : (x == y) = (y == x) := by
  rw [Bool.eq_iff_iff, beq_iff, beq_iff]
  exact exists_congr fun _ => and_comm

end Number

namespace Value

theorem equalsByKind_comm (a b : Value) : a.equalsByKind b = b.equalsByKind a := by
  cases a with
  | flag x =>
    cases b with
    | flag y => exact Bool.beq_comm
    | null | number | text | array | object => rfl
  | text s =>
    cases b with
    | text t => exact Bool.beq_comm
    | null | flag | number | array | object => rfl
  | null | number | array | object => cases b <;> rfl

theorem looselyEquals_comm (a b : Value) : a.looselyEquals b = b.looselyEquals a := by
  unfold looselyEquals
  cases a.number? with
  | none => cases b.number? <;> exact equalsByKind_comm a b
  | some x =>
    cases b.number? with
    | none => exact equalsByKind_comm a b
    | some y => exact Number.beq_comm x y

/-- Texts also match by their keywords, all else by loose equality alone. -/
theorem agrees_text_text (s t : String) : (Value.text s).agrees (.text t) =
    ((Value.text s).looselyEquals (.text t) || Text.keyword s == Text.keyword t) := by
  rw [← Text.sameLetters_trim]
  rfl

theorem agrees_of_not_text {a b : Value} (h : a.text? = none ∨ b.text? = none) :
    a.agrees b = a.looselyEquals b := by
  unfold agrees
  split
  · next s t => simp [text?] at h
  · exact Bool.or_false _

theorem agrees_comm (a b : Value) : a.agrees b = b.agrees a := by
  by_cases h : a.text? = none ∨ b.text? = none
  · rw [agrees_of_not_text h, agrees_of_not_text h.symm, looselyEquals_comm]
  · cases a with
    | text s =>
      cases b with
      | text t => rw [agrees_text_text, agrees_text_text, looselyEquals_comm, Bool.beq_comm]
      | null | flag | number | array | object => exact absurd (.inr rfl) h
    | null | flag | number | array | object => exact absurd (.inl rfl) h

/-- What coerces to nothing matches nothing. -/
theorem agrees_eq_false {a : Value} (hnumber : a.number? = none) (hflag : a.flag? = none)
    (htext : a.text? = none) (b : Value) : a.agrees b = false := by
  rw [agrees_of_not_text (.inl htext), looselyEquals, hnumber]
  cases a with
  | flag x => cases hflag
  | text s => cases htext
  | null | number | array | object => cases b <;> rfl

/-! ### Spelling -/

/-- The same value but for the case and the padding of its text, or of the texts among its items. -/
inductive Respelled : Value → Value → Prop
  | refl (v : Value) : Respelled v v
  | text {s s' : String} (h : Text.keyword s = Text.keyword s') : Respelled (.text s) (.text s')
  | array {items items' : List Value} (h : List.Forall₂ Respelled items items') :
      Respelled (.array items) (.array items')

namespace Respelled
variable {a a' : Value}

theorem number?_eq (h : a.Respelled a') : a'.number? = a.number? := by
  cases h with
  | refl => rfl
  | text h => rw [number?_text, number?_text, h]
  | array h => rfl

theorem flag?_eq (h : a.Respelled a') : a'.flag? = a.flag? := by
  cases h with
  | refl => rfl
  | text h => rw [flag?, flag?, h]
  | array h => rfl

theorem isMissing_eq (h : a.Respelled a') : a'.isMissing = a.isMissing := by
  cases h with
  | refl => rfl
  | text h => rw [isMissing_text, isMissing_text, h]
  | array h => cases h <;> rfl

theorem eq_null_iff (h : a.Respelled a') : a' = .null ↔ a = .null := by
  cases h with
  | refl => rfl
  | text h => simp
  | array h => simp

end Respelled

theorem looselyEquals_respelled {s s' : String} (h : Text.keyword s = Text.keyword s') (b : Value)
    (hb : b.text? = none) :
    (Value.text s').looselyEquals b = (Value.text s).looselyEquals b := by
  have hkind : (Value.text s').equalsByKind b = (Value.text s).equalsByKind b := by
    cases b with
    | flag y => exact congrArg (· == some y) (Respelled.text h).flag?_eq
    | text t => cases hb
    | null | number | array | object => rfl
  rw [looselyEquals, looselyEquals, (Respelled.text h).number?_eq, hkind]

/-- Texts that match by being the same match by their keywords already. -/
theorem agrees_text_eq (s t : String) : (Value.text s).agrees (.text t) =
    ((match (Value.text s).number?, (Value.text t).number? with
      | some x, some y => x == y
      | _, _ => false) || Text.keyword s == Text.keyword t) := by
  -- Texts that are the same have the same keyword.
  have hkind : ((Value.text s).equalsByKind (.text t) || Text.keyword s == Text.keyword t) =
      (false || Text.keyword s == Text.keyword t) := by
    by_cases h : s = t
    · simp [h]
    · simp [equalsByKind, h]
  rw [agrees_text_text, looselyEquals]
  cases (Value.text s).number? with
  | none => exact hkind
  | some x =>
    cases (Value.text t).number? with
    | none => exact hkind
    | some y => rfl

theorem agrees_respelled_left {a a' : Value} (h : a.Respelled a') (b : Value) :
    a'.agrees b = a.agrees b := by
  cases h with
  | refl => rfl
  | text hs =>
    cases b with
    | text t => rw [agrees_text_eq, agrees_text_eq, (Respelled.text hs).number?_eq, hs]
    | null | flag | number | array | object =>
      rw [agrees_of_not_text (.inr rfl), agrees_of_not_text (.inr rfl),
        looselyEquals_respelled hs _ rfl]
  | array h => rw [agrees_eq_false rfl rfl rfl, agrees_eq_false rfl rfl rfl]

theorem agrees_respelled {a a' b b' : Value} (ha : a.Respelled a') (hb : b.Respelled b') :
    a'.agrees b' = a.agrees b := by
  rw [agrees_respelled_left ha, agrees_comm, agrees_respelled_left hb, agrees_comm]

end Value

/-! ### Thresholds -/

/-- The same threshold but for the spelling of its values. -/
inductive Threshold.Respelled : Threshold → Threshold → Prop
  | range (min max : Float) : Respelled (.range min max) (.range min max)
  | list {items items' : List Value} (h : List.Forall₂ Value.Respelled items items') :
      Respelled (.list items) (.list items')
  | scalar {v v' : Value} (h : v.Respelled v') : Respelled (.scalar v) (.scalar v')

namespace Threshold.Respelled
variable {t t' : Threshold}

theorem number?_eq (h : t.Respelled t') : t'.number? = t.number? := by
  cases h with
  | range | list => rfl
  | scalar h => exact h.number?_eq

theorem bounds?_eq (h : t.Respelled t') : t'.bounds? = t.bounds? := by
  cases h with
  | range | scalar => rfl
  | list h =>
    -- only a list of two has bounds
    rcases h with _ | ⟨ha, _ | ⟨hb, _ | _⟩⟩
    · rfl
    · rfl
    · simp only [bounds?, ha.number?_eq, hb.number?_eq]
    · rfl

end Threshold.Respelled

/-- Lists whose members correspond have a member that passes, or both have none. -/
theorem any_congr_forall₂ {α β : Type} {R : α → β → Prop} {p : α → Bool} {q : β → Bool}
    {items : List α} {items' : List β} (h : List.Forall₂ R items items')
    (hpq : ∀ a b, R a b → q b = p a) : items'.any q = items.any p := by
  induction h with
  | nil => rfl
  | cons hab _ ih => rw [List.any_cons, List.any_cons, hpq _ _ hab, ih]

theorem Operator.holds_respelled {a a' : Value} (ha : a.Respelled a') {t t' : Threshold}
    (ht : t.Respelled t') (op : Operator) : op.holds a' t' = op.holds a t := by
  cases op with
  | gte | lte | gt | lt =>
    rw [holds_of_isOrdering rfl, holds_of_isOrdering rfl, ha.number?_eq, ht.number?_eq]
  | eq | neq =>
    cases ht with
    | scalar hv => rw [holds, holds, Value.agrees_respelled ha hv]
    | range | list => rfl
  | oneOf | noneOf =>
    rw [holds_of_isMembership rfl, holds_of_isMembership rfl]
    cases ht with
    | list hitems => simp only [any_congr_forall₂ hitems fun _ _ => Value.agrees_respelled ha]
    | range | scalar => rfl
  | between => simp only [holds, ha.number?_eq, ht.bounds?_eq]

theorem Value.compare_respelled {a a' : Value} (ha : a.Respelled a') {t t' : Threshold}
    (ht : t.Respelled t') (op : Operator) : a'.compare op t' = a.compare op t := by
  by_cases hnull : a = .null
  · rw [ha.eq_null_iff.2 hnull, hnull]
    rfl
  · rw [compare_of_ne_null hnull, compare_of_ne_null (mt ha.eq_null_iff.1 hnull),
      op.holds_respelled ha ht]

/-! ### Categories -/

/-- The same branch but for the spelling of its values. -/
structure Branch.Respelled (b b' : Branch) : Prop where
  values : List.Forall₂ Value.Respelled b.values b'.values
  rest : b' = { b with values := b'.values }

theorem Branch.Respelled.label_eq {b b' : Branch} (h : b.Respelled b') : b'.label = b.label := by
  rw [h.rest]

/-- The same categories of an attribute, but for the spelling of the branches' values. -/
structure ConditionSpec.Respelled (spec spec' : ConditionSpec) : Prop where
  type : spec.type = .categorical
  branches : List.Forall₂ Branch.Respelled spec.branches spec'.branches
  rest : spec' = { spec with branches := spec'.branches }

namespace Branching
variable {a a' : Value} {branches branches' : List Branch}

/-- The value matches or, of an array, one of its items does. -/
def meets (actual v : Value) : Bool :=
  match actual with
  | .array items => items.any (·.agrees v)
  | actual => actual.agrees v

theorem labels_respelled (h : List.Forall₂ Branch.Respelled branches branches') :
    branches'.map Branch.label = branches.map Branch.label := by
  induction h with
  | nil => rfl
  | cons hb _ ih => rw [List.map_cons, List.map_cons, hb.label_eq, ih]

/-- A search by label finds the same label. -/
theorem find?_label (h : branches'.map Branch.label = branches.map Branch.label)
    (p : String → Bool) : (branches'.find? (p ·.label)).map Branch.label =
      (branches.find? (p ·.label)).map Branch.label := by
  have hfind (bs : List Branch) :
      (bs.find? (p ·.label)).map Branch.label = (bs.map Branch.label).find? p :=
    (List.find?_map ..).symm
  rw [hfind, hfind, h]

/-- What is chosen by the branch found depends on its label alone. -/
theorem chosen_congr (s : Selection) {found found' : Option Branch}
    {other other' : String × Selection} :
    found'.map Branch.label = found.map Branch.label → other' = other →
      (match found' with | some b => (b.label, s) | none => other') =
        (match found with | some b => (b.label, s) | none => other) := by
  intro h hother
  cases found with
  | none =>
    rw [Option.map_eq_none_iff.1 h]
    exact hother
  | some b =>
    obtain ⟨b', rfl, hlabel⟩ := Option.map_eq_some_iff.1 h
    exact congrArg (·, s) hlabel

theorem unmatched_congr (h : branches'.map Branch.label = branches.map Branch.label) :
    unmatched branches' = unmatched branches :=
  chosen_congr .catchAll (find?_label h isCatchAllLabel) rfl

theorem missing_congr (h : branches'.map Branch.label = branches.map Branch.label)
    (nullBranch : Option String) : missing branches' nullBranch = missing branches nullBranch := by
  cases nullBranch with
  | some label => rfl
  | none =>
    have hother : (branches'.find? isOther).map Branch.label =
        (branches.find? isOther).map Branch.label := find?_label h (Text.keyword · == "other")
    have hhead : branches'.head?.map Branch.label = branches.head?.map Branch.label := by
      rw [← List.head?_map, ← List.head?_map, h]
    refine chosen_congr .nullFallback ?_ rfl
    simp only [Option.orElse_eq_orElse, Option.orElse_eq_or, Option.map_or, hother, hhead]

theorem meets_respelled {v v' : Value} (ha : a.Respelled a') (hv : v.Respelled v') :
    meets a' v' = meets a v := by
  have harray {items items' : List Value} (h : List.Forall₂ Value.Respelled items items') :
      items'.any (·.agrees v') = items.any (·.agrees v) :=
    any_congr_forall₂ h fun _ _ hi => Value.agrees_respelled hi hv
  cases ha with
  | refl =>
    cases a with
    | array items => exact harray (List.forall₂_same.2 fun v _ => .refl v)
    | null | flag | number | text | object => exact Value.agrees_respelled (.refl _) hv
  | text h => exact Value.agrees_respelled (.text h) hv
  | array h => exact harray h

theorem takes_respelled {b b' : Branch} (hb : b.Respelled b') (ha : a.Respelled a') :
    takes a' b' = takes a b :=
  any_congr_forall₂ hb.values fun _ _ => meets_respelled ha

theorem find?_takes_respelled (h : List.Forall₂ Branch.Respelled branches branches')
    (ha : a.Respelled a') : (branches'.find? (takes a')).map Branch.label =
      (branches.find? (takes a)).map Branch.label := by
  induction h with
  | nil => rfl
  | @cons b b' _ _ hb _ ih =>
    rw [List.find?_cons, List.find?_cons, takes_respelled hb ha]
    cases takes a b with
    | true => exact congrArg some hb.label_eq
    | false => exact ih

theorem categoryChoice_respelled (h : List.Forall₂ Branch.Respelled branches branches')
    (ha : a.Respelled a') : categoryChoice branches' a' = categoryChoice branches a :=
  chosen_congr .matched (find?_takes_respelled h ha) (unmatched_congr (labels_respelled h))

theorem step_categorical {spec : ConditionSpec} (h : spec.type = .categorical) (key : String)
    (ctx : Context) :
    ((spec.step key ctx).branch, (spec.step key ctx).selection) =
      if (observed ctx (spec.field.getD "")).isMissing then missing spec.branches spec.nullBranch
      else categoryChoice spec.branches (observed ctx (spec.field.getD "")) := by
  simp only [ConditionSpec.step, h]

theorem step_respelled {spec spec' : ConditionSpec} (h : spec.Respelled spec') (key : String)
    {ctx ctx' : Context} (hobserved : (observed ctx (spec.field.getD "")).Respelled
      (observed ctx' (spec.field.getD ""))) :
    (spec'.step key ctx').branch = (spec.step key ctx).branch ∧
      (spec'.step key ctx').selection = (spec.step key ctx).selection := by
  have hfield : spec'.field = spec.field := by rw [h.rest]
  have hnull : spec'.nullBranch = spec.nullBranch := by rw [h.rest]
  have htype : spec'.type = .categorical := by rw [h.rest, h.type]
  rw [← Prod.mk.injEq, step_categorical htype, step_categorical h.type, hfield, hnull,
    hobserved.isMissing_eq, missing_congr (labels_respelled h.branches),
    categoryChoice_respelled h.branches hobserved]

end Branching

open Branching in
/-- **Spelling decides nothing.** Matching is symmetric, nothing matches null, an array or an
object, and what is respelled on either side matches as before. So every comparison with a threshold
comes to what it did, and a categorical node takes the branch that it took, for the same reason. -/
theorem spelling_decides_nothing :
    (∀ a b : Value, a.agrees b = b.agrees a) ∧
      (∀ b : Value, Value.null.agrees b = false ∧ (∀ items, (Value.array items).agrees b = false) ∧
        ∀ members, (Value.object members).agrees b = false) ∧
      (∀ a a' b b' : Value, a.Respelled a' → b.Respelled b' → a'.agrees b' = a.agrees b) ∧
      (∀ (op : Operator) (a a' : Value) (t t' : Threshold), a.Respelled a' → t.Respelled t' →
        a'.compare op t' = a.compare op t) ∧
      ∀ (spec spec' : ConditionSpec) (key : String) (ctx ctx' : Context), spec.Respelled spec' →
        (observed ctx (spec.field.getD "")).Respelled (observed ctx' (spec.field.getD "")) →
        (spec'.step key ctx').branch = (spec.step key ctx).branch ∧
          (spec'.step key ctx').selection = (spec.step key ctx).selection :=
  ⟨Value.agrees_comm,
    fun b => ⟨Value.agrees_eq_false rfl rfl rfl b, fun _ => Value.agrees_eq_false rfl rfl rfl b,
      fun _ => Value.agrees_eq_false rfl rfl rfl b⟩,
    fun _ _ _ _ => Value.agrees_respelled,
    fun op _ _ _ _ ha ht => Value.compare_respelled ha ht op,
    fun _ _ key _ _ hspec hobserved => step_respelled hspec key hobserved⟩

/-- Sends online applications one way and all others another. -/
def channelSpec (values : List String) : ConditionSpec :=
  .categorical "channel"
    [{ Branch.ofLabel "Online" with values := values.map .text }, .ofLabel "Other"]

def appliedThrough (channel : String) : Context :=
  Record.empty.put .channel (some channel)

/-- The channel is padded and in capitals, and so are the values that the branch declares. -/
theorem spelling_decides_nothing_online :
    Text.keyword "  MOBILE " = Text.keyword "mobile" ∧
      ((channelSpec ["WEB ", " Mobile"]).step "channel" (appliedThrough "  MOBILE ")).branch =
        "Online" ∧
      ((channelSpec ["WEB ", " Mobile"]).step "channel" (appliedThrough "  MOBILE ")).selection =
        .matched := by
  have hkeyword : Text.keyword "  MOBILE " = Text.keyword "mobile" := by decide +kernel
  have hvalues : List.Forall₂ Value.Respelled [.text "web", .text "mobile"]
      [.text "WEB ", .text " Mobile"] :=
    .cons (.text (by decide +kernel)) (.cons (.text (by decide +kernel)) .nil)
  have hspec : (channelSpec ["web", "mobile"]).Respelled (channelSpec ["WEB ", " Mobile"]) :=
    ⟨rfl, .cons ⟨hvalues, rfl⟩ (.cons ⟨.nil, rfl⟩ .nil), rfl⟩
  have hobserved : (Branching.observed (appliedThrough "mobile") "channel").Respelled
      (Branching.observed (appliedThrough "  MOBILE ") "channel") := .text hkeyword.symm
  obtain ⟨-, -, -, -, same⟩ := spelling_decides_nothing
  obtain ⟨hbranch, hselection⟩ := same _ _ "channel" _ _ hspec hobserved
  exact ⟨hkeyword, hbranch.trans (by decide +kernel), hselection.trans (by decide +kernel)⟩

end Lending
