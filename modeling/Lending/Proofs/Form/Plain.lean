import Lending.Form.Policies
import Lending.Proofs.Form.Members
import Lending.Proofs.Json.Kept

/-! Policies that JSON can hold.

A policy is plain if its numbers are finite and its dictionaries are in key order, as every
dictionary is that entries were put into one by one. JSON keeps the whole form of a plain policy
(`Bundle.isJson_form`). -/
namespace Lending

/-! ### Values -/

namespace Document
open Value Json

mutual

theorem isJson_ofValue {v : Value} (h : v.IsPlain) : IsJson (ofValue v) := by
  cases v with
  | null | flag | text => trivial
  | number x => exact h
  | array items => exact areJson_ofValues h
  | object members => exact membersAreJson_ofMembers h.2

theorem areJson_ofValues {items : List Value} (h : ArePlain items) : AreJson (ofValues items) := by
  cases items with
  | nil => trivial
  | cons v rest => exact ⟨isJson_ofValue h.1, areJson_ofValues h.2⟩

theorem membersAreJson_ofMembers {members : List (String × Value)} (h : MembersArePlain members) :
    MembersAreJson (ofMembers members) := by
  cases members with
  | nil => trivial
  | cons m rest => exact ⟨isJson_ofValue h.1, membersAreJson_ofMembers h.2⟩

end

end Document

/-! ### Policies -/

/-- Finite bounds, and plain values. -/
def Threshold.IsPlain : Threshold → Prop
  | .range min max => min.isFinite = true ∧ max.isFinite = true
  | .list items => ∀ v ∈ items, v.IsPlain
  | .scalar v => v.IsPlain

/-- The thresholds of a rule's kind: one, or one for each of several comparisons. -/
def RuleKind.thresholds : RuleKind → List Threshold
  | .stored c => [c.threshold]
  | .computed _ _ threshold => [threshold]
  | .compound _ conditions => conditions.map Condition.threshold

def Rule.IsPlain (r : Rule) : Prop :=
  ∀ t ∈ r.kind.thresholds, t.IsPlain

def RuleOverride.IsPlain (o : RuleOverride) : Prop :=
  ∀ t ∈ o.threshold, t.IsPlain

structure CatalogChanges.IsPlain (c : CatalogChanges) : Prop where
  sorted : c.overrides.Sorted
  overrides : ∀ o ∈ c.overrides.values, o.IsPlain
  custom : ∀ r ∈ c.custom, r.IsPlain

structure Branch.IsPlain (b : Branch) : Prop where
  values : ∀ v ∈ b.values, v.IsPlain
  min : ∀ x ∈ b.min, x.isFinite = true
  max : ∀ x ∈ b.max, x.isFinite = true
  threshold : ∀ v ∈ b.threshold, v.IsPlain

structure ConditionSpec.IsPlain (s : ConditionSpec) : Prop where
  branches : ∀ b ∈ s.branches, b.IsPlain
  clauses : ∀ c ∈ s.clauses, c.value.IsPlain

def NodeKind.IsPlain : NodeKind → Prop
  | .condition spec => spec.IsPlain
  | .gate _ branches _ => ∀ b ∈ branches, b.IsPlain
  | .strategy _ params => params.Sorted ∧ ∀ v ∈ params.values, v.IsPlain
  | .assessment _ | .note _ => True

def TreeDraft.IsPlain (t : TreeDraft) : Prop :=
  ∀ n ∈ t.nodes, n.kind.IsPlain

structure Strategy.IsPlain (s : Strategy) : Prop where
  knockOuts : ∀ r ∈ s.knockOuts, r.IsPlain
  overlays : ∀ r ∈ s.overlays, r.IsPlain
  cutoffs : ∀ c ∈ s.cutoffs, c.minScore.isFinite = true
  reasonCodes : s.reasonCodes.Sorted
  gate : ∀ g ∈ s.gate, g.minScore.isFinite = true

structure Bundle.IsPlain (b : Bundle) : Prop where
  catalog : ∀ c ∈ b.catalog, c.IsPlain
  trees : ∀ t ∈ b.trees, t.IsPlain
  strategies : ∀ s ∈ b.strategies, s.IsPlain
  assessments : ∀ a ∈ b.assessments, ∀ r ∈ a.rules, r.IsPlain

/-! ### What their forms consist of -/

namespace Json
open Form
variable {α : Type}

theorem isJson_ofCount (n : UInt32) : IsJson (ofCount n) :=
  ⟨Int.natCast_nonneg _, Int.ofNat_lt.2 (Nat.lt_trans n.toNat_lt_size (by decide))⟩

theorem isJson_ofList {f : α → Document} {items : List α} (h : ∀ a ∈ items, IsJson (f a)) :
    IsJson (ofList f items) := by
  rw [ofList, IsJson, areJson_iff]
  exact List.forall_mem_map.2 h

theorem isJson_ofDict {f : α → Document} {d : Dict α} (h : ∀ a ∈ d.values, IsJson (f a)) :
    IsJson (ofDict f d) :=
  isJson_record.2 (List.forall_mem_map.2 fun e he => h e.2 (List.mem_map_of_mem he))

end Json

open Json Form

theorem Threshold.isJson_form {t : Threshold} (h : t.IsPlain) : IsJson t.form := by
  cases t with
  | range min max => exact isJson_record.2 (by simpa [IsJson, IsPlain] using h)
  | list items => exact isJson_ofList fun v hv => Document.isJson_ofValue (h v hv)
  | scalar v => exact Document.isJson_ofValue h

theorem Condition.isJson_fields {c : Condition} (h : c.threshold.IsPlain) :
    ∀ m ∈ c.fields, IsJson m.2 := by
  simp only [fields, List.forall_mem_cons]
  exact ⟨trivial, trivial, Threshold.isJson_form h, List.forall_mem_nil _⟩

theorem RuleKind.isJson_form {k : RuleKind} (h : ∀ t ∈ k.thresholds, t.IsPlain) :
    IsJson k.form := by
  cases k with
  | stored c =>
    refine isJson_record.2 (List.forall_mem_cons.2 ⟨trivial, ?_⟩)
    exact Condition.isJson_fields (h _ (List.mem_cons_self ..))
  | computed field operator threshold =>
    refine isJson_record.2 ?_
    simp only [List.forall_mem_cons]
    exact ⟨trivial, trivial, trivial, Threshold.isJson_form (h _ (List.mem_cons_self ..)),
      List.forall_mem_nil _⟩
  | compound logic conditions =>
    refine isJson_record.2 ?_
    simp only [List.forall_mem_cons]
    refine ⟨trivial, trivial, isJson_ofList fun c hc => ?_, List.forall_mem_nil _⟩
    exact isJson_record.2 (Condition.isJson_fields (h _ (List.mem_map_of_mem hc)))

theorem Rule.isJson_form {r : Rule} (h : r.IsPlain) : IsJson r.form := by
  refine isJson_record.2 ?_
  simp only [List.forall_mem_append, List.forall_mem_cons, forall_mem_optional]
  exact ⟨⟨⟨trivial, trivial, List.forall_mem_nil _⟩, fun _ _ => trivial⟩,
    RuleKind.isJson_form h, trivial, trivial, trivial, trivial, List.forall_mem_nil _⟩

theorem RuleOverride.isJson_form {o : RuleOverride} (h : o.IsPlain) : IsJson o.form := by
  refine isJson_record.2 ?_
  simp only [List.forall_mem_append, forall_mem_optional]
  exact ⟨⟨⟨fun t ht => Threshold.isJson_form (h t ht), fun _ _ => trivial⟩, fun _ _ => trivial⟩,
    fun _ _ => trivial⟩

theorem CatalogChanges.isJson_form {c : CatalogChanges} (h : c.IsPlain) : IsJson c.form := by
  refine isJson_record.2 ?_
  simp only [List.forall_mem_append, List.forall_mem_cons, forall_mem_optional]
  exact ⟨fun n _ => isJson_ofCount n,
    isJson_ofDict fun o ho => RuleOverride.isJson_form (h.overrides o ho),
    isJson_ofList fun r hr => Rule.isJson_form (h.custom r hr), List.forall_mem_nil _⟩

theorem Branch.isJson_form {b : Branch} (h : b.IsPlain) : IsJson b.form := by
  refine isJson_record.2 ?_
  simp only [List.forall_mem_append, List.forall_mem_cons, forall_mem_optional,
    forall_mem_unlessEmpty]
  exact ⟨⟨⟨⟨⟨trivial, List.forall_mem_nil _⟩,
    fun _ => isJson_ofList fun v hv => Document.isJson_ofValue (h.values v hv)⟩, h.min⟩, h.max⟩,
    fun v hv => Document.isJson_ofValue (h.threshold v hv)⟩

theorem Clause.isJson_form {c : Clause} (h : c.value.IsPlain) : IsJson c.form := by
  refine isJson_record.2 ?_
  simp only [List.forall_mem_cons]
  exact ⟨trivial, trivial, Document.isJson_ofValue h, List.forall_mem_nil _⟩

theorem ConditionSpec.isJson_fields {s : ConditionSpec} (h : s.IsPlain) :
    ∀ m ∈ s.fields, IsJson m.2 := by
  simp only [fields, List.forall_mem_append, List.forall_mem_cons, forall_mem_optional,
    forall_mem_unlessEmpty]
  exact ⟨⟨⟨⟨⟨⟨⟨trivial, List.forall_mem_nil _⟩, fun _ _ => trivial⟩, fun _ _ => trivial⟩,
    isJson_ofList fun b hb => Branch.isJson_form (h.branches b hb), List.forall_mem_nil _⟩,
    fun _ => isJson_ofList fun c hc => Clause.isJson_form (h.clauses c hc)⟩,
    trivial, List.forall_mem_nil _⟩, fun _ _ => trivial⟩

theorem NodeKind.isJson_fields {k : NodeKind} (h : k.IsPlain) : ∀ m ∈ k.fields, IsJson m.2 := by
  cases k with
  | condition spec => exact List.forall_mem_cons.2 ⟨trivial, ConditionSpec.isJson_fields h⟩
  | gate field branches nullBranch =>
    simp only [fields, List.forall_mem_append, List.forall_mem_cons, forall_mem_optional]
    exact ⟨⟨trivial, trivial, isJson_ofList fun b hb => Branch.isJson_form (h b hb),
      List.forall_mem_nil _⟩, fun _ _ => trivial⟩
  | strategy id params =>
    simp only [fields, List.forall_mem_append, List.forall_mem_cons, forall_mem_unlessEmpty]
    exact ⟨⟨trivial, trivial, List.forall_mem_nil _⟩,
      fun _ => isJson_ofDict fun v hv => Document.isJson_ofValue (h.2 v hv)⟩
  | assessment id =>
    simp only [fields, List.forall_mem_cons]
    exact ⟨trivial, trivial, List.forall_mem_nil _⟩
  | note text =>
    simp only [fields, List.forall_mem_cons, forall_mem_optional]
    exact ⟨trivial, fun _ _ => trivial⟩

theorem Node.isJson_form {n : Node} (h : n.kind.IsPlain) : IsJson n.form := by
  refine isJson_record.2 ?_
  simp only [List.forall_mem_append, List.forall_mem_cons, forall_mem_optional]
  exact ⟨⟨⟨⟨⟨⟨trivial, List.forall_mem_nil _⟩, fun _ _ => trivial⟩, fun _ _ => trivial⟩,
    fun _ _ => trivial⟩, trivial, List.forall_mem_nil _⟩, NodeKind.isJson_fields h⟩

theorem TreeDraft.isJson_form {t : TreeDraft} (h : t.IsPlain) : IsJson t.form := by
  refine isJson_record.2 ?_
  simp only [List.forall_mem_append, List.forall_mem_cons, forall_mem_optional]
  exact ⟨⟨⟨⟨⟨trivial, List.forall_mem_nil _⟩, fun _ _ => trivial⟩, isJson_ofCount _,
    List.forall_mem_nil _⟩, fun _ _ => trivial⟩,
    isJson_ofList fun n hn => Node.isJson_form (h n hn), List.forall_mem_nil _⟩

theorem Cutoff.isJson_form {c : Cutoff} (h : c.minScore.isFinite = true) : IsJson c.form := by
  refine isJson_record.2 ?_
  simp only [List.forall_mem_cons]
  exact ⟨trivial, h, trivial, List.forall_mem_nil _⟩

theorem Gate.isJson_form {g : Gate} (h : g.minScore.isFinite = true) : IsJson g.form := by
  refine isJson_record.2 ?_
  simp only [List.forall_mem_cons]
  exact ⟨h, trivial, List.forall_mem_nil _⟩

theorem Strategy.isJson_form {s : Strategy} (h : s.IsPlain) : IsJson s.form := by
  refine isJson_record.2 ?_
  simp only [List.forall_mem_append, List.forall_mem_cons, forall_mem_optional]
  exact ⟨⟨⟨⟨trivial, isJson_ofCount _, List.forall_mem_nil _⟩, fun _ _ => trivial⟩, trivial,
    isJson_ofList fun r hr => Rule.isJson_form (h.knockOuts r hr),
    isJson_ofList fun r hr => Rule.isJson_form (h.overlays r hr),
    isJson_ofList fun c hc => Cutoff.isJson_form (h.cutoffs c hc),
    isJson_ofDict fun _ _ => trivial, List.forall_mem_nil _⟩,
    fun g hg => Gate.isJson_form (h.gate g hg)⟩

theorem Assessment.isJson_form {a : Assessment} (h : ∀ r ∈ a.rules, r.IsPlain) :
    IsJson a.form := by
  refine isJson_record.2 ?_
  simp only [List.forall_mem_append, List.forall_mem_cons, forall_mem_optional]
  exact ⟨⟨⟨trivial, List.forall_mem_nil _⟩, fun _ _ => trivial⟩,
    isJson_ofList fun r hr => Rule.isJson_form (h r hr), List.forall_mem_nil _⟩

/-- **JSON holds the form of a plain bundle.** -/
theorem Bundle.isJson_form {b : Bundle} (h : b.IsPlain) : IsJson b.form := by
  refine isJson_record.2 ?_
  simp only [List.forall_mem_append, List.forall_mem_cons, forall_mem_optional]
  exact ⟨fun c hc => CatalogChanges.isJson_form (h.catalog c hc),
    isJson_ofList fun t ht => TreeDraft.isJson_form (h.trees t ht),
    isJson_ofList fun s hs => Strategy.isJson_form (h.strategies s hs),
    isJson_ofList fun a ha => Assessment.isJson_form (h.assessments a ha), List.forall_mem_nil _⟩

end Lending
