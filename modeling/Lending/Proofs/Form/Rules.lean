import Lending.Proofs.Form.Plain
import Lending.Proofs.Threshold

/-! Rules, overrides and catalog changes, read back from their forms.

A threshold's form does not say which of its shapes it has, so a scalar with the shape of a list
or of a range is read back as one (`Threshold.givesBack`). An optional threshold of null is read
back as none. Everything else of a plain rule is what it was. -/
namespace Lending
open Form

/-! ### Words and values -/

theorem Operator.ofTaggedForm?_form (op : Operator) : ofTaggedForm? op.form = some op := by
  cases op <;> rfl

theorem Logic.ofTaggedForm?_form (l : Logic) : ofTaggedForm? l.form = some l := by
  cases l <;> rfl

theorem Severity.ofForm?_form (s : Severity) : ofForm? s.form = some s := by
  cases s <;> rfl

theorem RuleOutcome.ofForm?_form (o : RuleOutcome) : ofForm? o.form = some o := by
  cases o <;> rfl

theorem ComputedField.ofTaggedForm?_name (field : ComputedField) :
    ofTaggedForm? (.text field.name) = some field := by
  cases field <;> rfl

theorem Value.ofForm?_ofValue {v : Value} (h : v.IsPlain) : ofForm? (.ofValue v) = some v :=
  congrArg some (Document.toValue_ofValue h)

theorem Form.count?_ofCount (n : UInt32) : count? (ofCount n) = some n := by
  have hn : (0 : Int) ≤ n.toNat ∧ (n.toNat : Int) < UInt32.size :=
    ⟨Int.natCast_nonneg _, Int.ofNat_lt.2 n.toNat_lt_size⟩
  rw [ofCount, count?, natural?, if_pos hn, Option.map_some, Int.toNat_natCast, UInt32.ofNat_toNat]

/-! ### Thresholds -/

/-- A value that is written like a list or like a range. -/
def Value.IsShaped : Value → Prop
  | .array _ => True
  | .object members => ∃ min max,
      Dict.get? members "min" = some (.number min) ∧ Dict.get? members "max" = some (.number max)
  | _ => False

namespace Threshold

/-- No scalar is written like a list or like a range. -/
def IsDistinct (t : Threshold) : Prop :=
  ∀ v, t = .scalar v → ¬ v.IsShaped

theorem writtenBounds?_ofValue {members : List (String × Value)} {min max : Float} :
    (Document.ofValue (.object members)).writtenBounds? = some (min, max) ↔
      Dict.get? members "min" = some (.number min) ∧
        Dict.get? members "max" = some (.number max) := by
  have hbound : ∀ name x, ((Document.ofValue (.object members)).get? name).bind Document.number? =
      some x ↔ Dict.get? members name = some (.number x) := by
    intro name x
    have hmember : (Document.ofValue (.object members)).get? name =
        (Dict.get? members name).map Document.ofValue :=
      Document.memberOf?_ofMembers members name
    rw [hmember, Option.bind_map, Option.bind_eq_some_iff]
    simp [Document.number?_ofValue]
  rw [← hbound, ← hbound, Document.writtenBounds?]
  cases ((Document.ofValue (.object members)).get? "min").bind Document.number? with
  | none => simp
  | some low =>
    cases ((Document.ofValue (.object members)).get? "max").bind Document.number? with
    | none => simp
    | some high => simp

/-- **A threshold is given back unless it is a scalar that is written like something else.** -/
theorem givesBack {t : Threshold} (h : t.IsPlain) :
    GivesBack (ofForm? t.form) t t.IsDistinct := by
  cases t with
  | range min max => exact ⟨.range min max, rfl, by simp [IsDistinct]⟩
  | list items =>
    have hitems : (items.map Document.ofValue).map Document.toValue = items := by
      rw [List.map_map]
      exact (List.map_congr_left fun v hv => Document.toValue_ofValue (h v hv)).trans
        (List.map_id items)
    refine ⟨.list items, ?_, by simp [IsDistinct]⟩
    exact congrArg (some ∘ Threshold.list) hitems
  | scalar v =>
    have hdistinct : IsDistinct (.scalar v) ↔ ¬ v.IsShaped := by simp [IsDistinct]
    have hread : ofForm? (scalar v).form = some (ofDocument (.ofValue v)) := rfl
    refine ⟨_, hread, Iff.trans ?_ hdistinct.symm⟩
    cases v with
    | null | flag | number | text => exact iff_of_true rfl id
    | array items => exact iff_of_false (fun he => by cases he) fun hshape => hshape trivial
    | object members =>
      have hvalue := Document.toValue_ofValue h
      rw [Document.ofValue] at hvalue ⊢
      rw [ofDocument_mapping, hvalue]
      cases hb : Document.writtenBounds? (.mapping (Document.ofMembers members)) with
      | none =>
        refine iff_of_true rfl ?_
        rintro ⟨min, max, hbounds⟩
        exact Option.some_ne_none _ ((writtenBounds?_ofValue.2 hbounds).symm.trans hb)
      | some bounds =>
        refine iff_of_false (fun he => by cases he) fun hshape => hshape ?_
        exact ⟨bounds.1, bounds.2, writtenBounds?_ofValue.1 hb⟩

example : ofForm? (scalar (.array [.flag true])).form = some (.list [.flag true]) := by
  rfl

end Threshold

/-! ### Conditions and kinds -/

theorem Condition.givesBack_fields {c : Condition} (h : c.threshold.IsPlain) :
    GivesBack (ofForm? (.record c.fields)) c c.threshold.IsDistinct := by
  have hrecord : IsRecord names (.record c.fields) := ⟨_, rfl, .always _⟩
  obtain ⟨m, hm, hget⟩ := hrecord.members? (by decide) names
  have hfield : m.required text? "field" = some c.field :=
    required_of_get? (d := .text c.field) (by simp [hget, fields])
  have hoperator : m.required Operator.ofTaggedForm? "operator" = some c.operator :=
    (required_of_get? (by simp [hget, fields])).trans (Operator.ofTaggedForm?_form c.operator)
  obtain ⟨threshold, hread, hiff⟩ := Threshold.givesBack h
  have hthreshold : m.required Threshold.ofForm? "threshold" = some threshold :=
    (required_of_get? (by simp [hget, fields])).trans hread
  refine ⟨⟨c.field, c.operator, threshold⟩, ?_, ?_⟩
  · simp [ofForm?, hm, hfield, hoperator, hthreshold]
  · rw [← hiff]
    obtain ⟨field, operator, t⟩ := c
    simp

namespace RuleKind

theorem givesBack_computed {field : ComputedField} {operator : Operator} {threshold : Threshold}
    (h : threshold.IsPlain) :
    GivesBack (computedOfForm? (.record
      [("field", .text field.name), ("operator", operator.form), ("threshold", threshold.form)]))
      (.computed field operator threshold) threshold.IsDistinct := by
  have hrecord : IsRecord Condition.names (.record
      [("field", .text field.name), ("operator", operator.form), ("threshold", threshold.form)]) :=
    ⟨_, rfl, .always _⟩
  obtain ⟨m, hm, hget⟩ := hrecord.members? (by decide) Condition.names
  have hfield : m.required ComputedField.ofTaggedForm? "field" = some field :=
    (required_of_get? (by simp [hget])).trans (ComputedField.ofTaggedForm?_name field)
  have hoperator : m.required Operator.ofTaggedForm? "operator" = some operator :=
    (required_of_get? (by simp [hget])).trans (Operator.ofTaggedForm?_form operator)
  obtain ⟨t, hread, hiff⟩ := Threshold.givesBack h
  have hthreshold : m.required Threshold.ofForm? "threshold" = some t :=
    (required_of_get? (by simp [hget])).trans hread
  refine ⟨.computed field operator t, ?_, ?_⟩
  · simp [computedOfForm?, hm, hfield, hoperator, hthreshold]
  · simp [hiff]

theorem givesBack_compound {logic : Logic} {conditions : List Condition}
    (h : ∀ c ∈ conditions, c.threshold.IsPlain) :
    GivesBack (compoundOfForm? (.record
      [("logic", logic.form), ("conditions", ofList Condition.form conditions)]))
      (.compound logic conditions) (∀ c ∈ conditions, c.threshold.IsDistinct) := by
  have hrecord : IsRecord ["logic", "conditions"] (.record
      [("logic", logic.form), ("conditions", ofList Condition.form conditions)]) :=
    ⟨_, rfl, .always _⟩
  obtain ⟨m, hm, hget⟩ := hrecord.members? (by decide) ["logic", "conditions"]
  have hlogic : m.required Logic.ofTaggedForm? "logic" = some logic :=
    (required_of_get? (by simp [hget])).trans (Logic.ofTaggedForm?_form logic)
  have hlist : GivesBack (list? Condition.ofForm? (ofList Condition.form conditions)) conditions
      (∀ c ∈ conditions, c.threshold.IsDistinct) :=
    givesBack_list fun c hc => Condition.givesBack_fields (h c hc)
  obtain ⟨cs, hread, hiff⟩ := hlist
  have hconditions : m.required (list? Condition.ofForm?) "conditions" = some cs :=
    (required_of_get? (by simp [hget])).trans hread
  refine ⟨.compound logic cs, ?_, ?_⟩
  · simp [compoundOfForm?, hm, hlogic, hconditions]
  · simp [hiff]

theorem givesBack {k : RuleKind} (h : ∀ t ∈ k.thresholds, t.IsPlain) :
    GivesBack (ofForm? k.form) k (∀ t ∈ k.thresholds, t.IsDistinct) := by
  cases k with
  | stored c =>
    have hread : ofForm? (stored c).form = (Condition.ofForm? (.record c.fields)).map .stored := by
      rw [form, ofForm?, tagged?_record (by simp [Condition.fields])]
      rfl
    rw [hread]
    refine ((Condition.givesBack_fields (h _ (List.mem_cons_self ..))).map ?_).congr ?_
    · simp
    · simp [thresholds]
  | computed field operator threshold =>
    rw [form, ofForm?, tagged?_record (by simp)]
    refine (givesBack_computed (h _ (List.mem_cons_self ..))).congr ?_
    simp [thresholds]
  | compound logic conditions =>
    rw [form, ofForm?, tagged?_record (by simp)]
    refine (givesBack_compound fun c hc => h _ (List.mem_map_of_mem hc)).congr ?_
    simp [thresholds]

end RuleKind

/-! ### Rules, overrides and catalog changes -/

theorem Rule.isRecord_form (r : Rule) : IsRecord names r.form :=
  ⟨_, rfl, ((Named.always _).append (.optional ..)).append (.always _)⟩

theorem Rule.givesBack {r : Rule} (h : r.IsPlain) :
    GivesBack (ofForm? r.form) r (∀ t ∈ r.kind.thresholds, t.IsDistinct) := by
  obtain ⟨m, hm, hget⟩ := r.isRecord_form.members? (by decide) names
  have hid : m.required text? "id" = some r.id :=
    required_of_get? (d := .text r.id) (by simp [hget, form])
  have hname : m.required text? "name" = some r.name :=
    required_of_get? (d := .text r.name) (by simp [hget, form])
  have hdescription : m.optional text? "description" = some r.description :=
    optional_of_get? .text (by simp [hget, form]) (by simp)
  obtain ⟨kind, hread, hiff⟩ := RuleKind.givesBack h
  have hkind : m.required RuleKind.ofForm? "kind" = some kind :=
    (required_of_get? (by simp [hget, form])).trans hread
  have houtcome : m.required RuleOutcome.ofForm? "outcome" = some r.outcome :=
    (required_of_get? (by simp [hget, form])).trans (RuleOutcome.ofForm?_form r.outcome)
  have hseverity : m.required Severity.ofForm? "severity" = some r.severity :=
    (required_of_get? (by simp [hget, form])).trans (Severity.ofForm?_form r.severity)
  have hcustom : m.orElse flag? "is_custom" false = some r.isCustom :=
    orElse_of_get? (d := .flag r.isCustom) (by simp [hget, form])
  have henabled : m.orElse flag? "enabled" true = some r.enabled :=
    orElse_of_get? (d := .flag r.enabled) (by simp [hget, form])
  refine ⟨{ r with kind := kind }, ?_, ?_⟩
  · rw [ofForm?, hm]
    simp [hid, hname, hdescription, hkind, houtcome, hseverity, hcustom, henabled]
  · rw [← hiff]
    obtain ⟨id, name, description, k, outcome, severity, isCustom, enabled⟩ := r
    simp

/-- Every rule of a list keeps its thresholds. -/
def Rule.AreDistinct (rules : List Rule) : Prop :=
  ∀ r ∈ rules, ∀ t ∈ r.kind.thresholds, t.IsDistinct

theorem Rule.givesBack_list {rules : List Rule} (h : ∀ r ∈ rules, r.IsPlain) :
    GivesBack (list? ofForm? (ofList form rules)) rules (AreDistinct rules) :=
  Form.givesBack_list fun r hr => givesBack (h r hr)

theorem Rule.areDistinct_append {rules more : List Rule} :
    AreDistinct (rules ++ more) ↔ AreDistinct rules ∧ AreDistinct more :=
  List.forall_mem_append

theorem Rule.areDistinct_flatMap {α : Type} {items : List α} {f : α → List Rule} :
    AreDistinct (items.flatMap f) ↔ ∀ a ∈ items, AreDistinct (f a) :=
  List.forall_mem_flatMap

/-- An optional threshold that is not null, and not a scalar written like something else. -/
def RuleOverride.IsDistinct (o : RuleOverride) : Prop :=
  ∀ t ∈ o.threshold, t ≠ .scalar .null ∧ t.IsDistinct

theorem Threshold.form_eq_null {t : Threshold} : t.form = .null ↔ t = .scalar .null := by
  cases t with
  | range => simp [form, Document.record]
  | list => simp [form, ofList]
  | scalar v => simp [form, Document.ofValue_eq_null]

theorem RuleOverride.isRecord_form (o : RuleOverride) :
    IsRecord ["threshold", "outcome", "severity", "enabled"] o.form :=
  ⟨_, rfl,
    (((Named.optional ..).append (.optional ..)).append (.optional ..)).append (.optional ..)⟩

theorem RuleOverride.givesBack {o : RuleOverride} (h : o.IsPlain) :
    GivesBack (ofForm? o.form) o o.IsDistinct := by
  obtain ⟨m, hm, hget⟩ :=
    o.isRecord_form.members? (by decide) ["threshold", "outcome", "severity", "enabled"]
  have hthreshold : GivesBack (m.optional Threshold.ofForm? "threshold") o.threshold o.IsDistinct :=
    (givesBack_optional Threshold.form (by simp [hget, form])
      fun t ht => Threshold.givesBack (h t ht)).congr
        (by simp only [IsDistinct, Ne, Threshold.form_eq_null])
  have houtcome : m.optional RuleOutcome.ofForm? "outcome" = some o.outcome :=
    optional_of_get? RuleOutcome.form (by simp [hget, form])
      fun x _ => ⟨by simp [RuleOutcome.form], RuleOutcome.ofForm?_form x⟩
  have hseverity : m.optional Severity.ofForm? "severity" = some o.severity :=
    optional_of_get? Severity.form (by simp [hget, form])
      fun x _ => ⟨by simp [Severity.form], Severity.ofForm?_form x⟩
  have henabled : m.optional flag? "enabled" = some o.enabled :=
    optional_of_get? .flag (by simp [hget, form]) (by simp [flag?])
  obtain ⟨threshold, hthreshold, hiff⟩ := hthreshold
  refine ⟨{ o with threshold := threshold }, ?_, ?_⟩
  · rw [ofForm?, hm]
    simp [hthreshold, houtcome, hseverity, henabled]
  · rw [← hiff]
    obtain ⟨t, outcome, severity, enabled⟩ := o
    simp

theorem CatalogChanges.isRecord_form (c : CatalogChanges) :
    IsRecord ["version", "overrides", "custom"] c.form :=
  ⟨_, rfl, (Named.optional ..).append (.always _)⟩

theorem CatalogChanges.givesBack {c : CatalogChanges} (h : c.IsPlain) :
    GivesBack (ofForm? c.form) c
      ((∀ o ∈ c.overrides.values, o.IsDistinct) ∧ Rule.AreDistinct c.custom) := by
  obtain ⟨m, hm, hget⟩ :=
    c.isRecord_form.members? (by decide) ["version", "overrides", "custom"]
  have hversion : m.optional count? "version" = some c.version :=
    optional_of_get? ofCount (by simp [hget, form]) fun n _ => ⟨by simp [ofCount], count?_ofCount n⟩
  obtain ⟨overrides, hread, hoverridesiff⟩ :=
    givesBack_dict h.sorted fun o ho => RuleOverride.givesBack (h.overrides o ho)
  have hoverrides : m.orElse (dict? RuleOverride.ofForm?) "overrides" [] = some overrides :=
    (orElse_of_get? (by simp [hget, form])).trans hread
  obtain ⟨custom, hread, hcustomiff⟩ := Rule.givesBack_list h.custom
  have hcustom : m.orElse (list? Rule.ofForm?) "custom" [] = some custom :=
    (orElse_of_get? (by simp [hget, form])).trans hread
  refine ⟨⟨c.version, overrides, custom⟩, ?_, ?_⟩
  · rw [ofForm?, hm]
    simp [hversion, hoverrides, hcustom]
  · rw [← hoverridesiff, ← hcustomiff]
    obtain ⟨version, os, rs⟩ := c
    simp

end Lending
