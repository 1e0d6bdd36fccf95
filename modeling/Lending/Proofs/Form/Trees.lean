import Lending.Proofs.Form.Rules

/-! Trees, read back from their forms.

A node's members and those of its kind stand side by side; no name is used twice, so each reader
finds its own (`Node.get?_ownFields`, `Node.get?_kind`). The one thing a tree's form does not keep
is a branch's threshold of null (`TreeDraft.givesBack`). -/
namespace Lending
open Form

theorem ConditionType.ofTaggedForm?_form (t : ConditionType) : ofTaggedForm? t.form = some t := by
  cases t <;> rfl

/-! ### Branches and nodes -/

/-- The threshold, where there is one, is not null. -/
def Branch.IsDistinct (b : Branch) : Prop :=
  b.threshold ≠ some .null

theorem Branch.isRecord_form (b : Branch) :
    IsRecord ["label", "values", "min", "max", "threshold"] b.form :=
  ⟨_, rfl, ((((Named.always _).append (.unlessEmpty ..)).append (.optional ..)).append
    (.optional ..)).append (.optional ..)⟩

theorem Branch.givesBack {b : Branch} (h : b.IsPlain) :
    GivesBack (ofForm? b.form) b b.IsDistinct := by
  obtain ⟨m, hm, hget⟩ :=
    b.isRecord_form.members? (by decide) ["label", "values", "min", "max", "threshold"]
  have hlabel : m.required text? "label" = some b.label :=
    required_of_get? (d := .text b.label) (by simp [hget, form])
  have hvalues : m.orElse (list? Value.ofForm?) "values" [] = some b.values :=
    orElse_unlessEmpty (ofList Document.ofValue) (by simp [hget, form])
      (list?_ofList fun v hv => Value.ofForm?_ofValue (h.values v hv))
  have hmin : m.optional number? "min" = some b.min :=
    optional_of_get? .real (by simp [hget, form]) (by simp [number?])
  have hmax : m.optional number? "max" = some b.max :=
    optional_of_get? .real (by simp [hget, form]) (by simp [number?])
  obtain ⟨threshold, hthreshold, hiff⟩ := givesBack_optional Document.ofValue
    (show m.get? "threshold" = b.threshold.map Document.ofValue by simp [hget, form])
    fun v hv => givesBack_of_eq (Value.ofForm?_ofValue (h.threshold v hv))
  refine ⟨⟨b.label, b.values, b.min, b.max, threshold⟩, ?_, ?_⟩
  · rw [ofForm?, hm]
    simp [hlabel, hvalues, hmin, hmax, hthreshold]
  · obtain ⟨label, values, min, max, t⟩ := b
    cases t <;> simp_all [IsDistinct, Document.ofValue_eq_null]

theorem Clause.ofForm?_form {c : Clause} (h : c.value.IsPlain) : ofForm? c.form = some c := by
  have hrecord : IsRecord ["attribute", "operator", "value"] c.form := ⟨_, rfl, .always _⟩
  obtain ⟨m, hm, hget⟩ := hrecord.members? (by decide) ["attribute", "operator", "value"]
  have hfield : m.required text? "attribute" = some c.field :=
    required_of_get? (d := .text c.field) (by simp [hget, form])
  have hoperator : m.required Operator.ofTaggedForm? "operator" = some c.operator :=
    (required_of_get? (by simp [hget, form])).trans (Operator.ofTaggedForm?_form c.operator)
  have hvalue : m.required Value.ofForm? "value" = some c.value :=
    (required_of_get? (by simp [hget, form])).trans (Value.ofForm?_ofValue h)
  rw [ofForm?, hm]
  simp [hfield, hoperator, hvalue]

theorem ConditionSpec.named (s : ConditionSpec) : Named names s.fields :=
  ((((((Named.always _).append (.optional ..)).append (.optional ..)).append (.always _)).append
    (.unlessEmpty ..)).append (.always _)).append (.optional ..)

theorem ConditionSpec.givesBack {s : ConditionSpec} (h : s.IsPlain) :
    GivesBack (ofForm? (.record s.fields)) s (∀ b ∈ s.branches, b.IsDistinct) := by
  have hrecord : IsRecord names (.record s.fields) := ⟨_, rfl, named s⟩
  obtain ⟨m, hm, hget⟩ := hrecord.members? (by decide) names
  have htype : m.required ConditionType.ofTaggedForm? "condition_type" = some s.type :=
    (required_of_get? (by simp [hget, fields])).trans (ConditionType.ofTaggedForm?_form s.type)
  have hfield : m.optional text? "attribute" = some s.field :=
    optional_of_get? .text (by simp [hget, fields]) (by simp)
  have hoperator : m.optional Operator.ofTaggedForm? "operator" = some s.operator :=
    optional_of_get? Operator.form (by simp [hget, fields])
      fun op _ => ⟨by simp [Operator.form], Operator.ofTaggedForm?_form op⟩
  obtain ⟨branches, hread, hiff⟩ := givesBack_list fun b hb => Branch.givesBack (h.branches b hb)
  have hbranches : m.orElse (list? Branch.ofForm?) "branches" [] = some branches :=
    (orElse_of_get? (by simp [hget, fields])).trans hread
  have hclauses : m.orElse (list? Clause.ofForm?) "compound_conditions" [] = some s.clauses :=
    orElse_unlessEmpty (ofList Clause.form) (by simp [hget, fields])
      (list?_ofList fun c hc => Clause.ofForm?_form (h.clauses c hc))
  have hlogic : m.orElse Logic.ofTaggedForm? "compound_logic" .and = some s.logic :=
    (orElse_of_get? (by simp [hget, fields])).trans (Logic.ofTaggedForm?_form s.logic)
  have hnull : m.optional text? "null_branch" = some s.nullBranch :=
    optional_of_get? .text (by simp [hget, fields]) (by simp)
  refine ⟨{ s with branches := branches }, ?_, ?_⟩
  · rw [ofForm?, hm]
    simp [htype, hfield, hoperator, hbranches, hclauses, hlogic, hnull]
  · rw [← hiff]
    obtain ⟨type, field, operator, bs, clauses, logic, nullBranch⟩ := s
    simp

namespace NodeKind

/-- The names of a kind's members, the tag apart. -/
def names : NodeKind → List String
  | .condition _ => ConditionSpec.names
  | .gate _ _ _ => ["attribute", "branches", "null_branch"]
  | .strategy _ _ => ["strategy_id", "params"]
  | .assessment _ => ["assessment_id"]
  | .note _ => ["note"]

theorem named (k : NodeKind) : Named ("type" :: k.names) k.fields := by
  cases k with
  | condition spec => exact (ConditionSpec.named spec).cons_cons "type"
  | gate field branches nullBranch => exact (Named.always _).append (.optional ..)
  | strategy id params => exact (Named.always _).append (.unlessEmpty ..)
  | assessment id => exact Named.always _
  | note text => exact (Named.optional ..).cons_cons "type"

/-- A node and its kind call no member alike. -/
theorem nodup_names (k : NodeKind) : (Node.names ++ "type" :: k.names).Nodup := by
  cases k <;> rw [names] <;> decide

theorem not_mem_of_fields (k : NodeKind) {tag : Document} {rest : List (String × Document)}
    (h : k.fields = ("type", tag) :: rest) : "type" ∉ rest.map Prod.fst := by
  have hnodup := (named k).nodup (List.nodup_append.1 (nodup_names k)).2.1
  rw [h] at hnodup
  exact (List.nodup_cons.1 hnodup).1

/-- Every branch of the kind keeps its threshold. -/
def IsDistinct : NodeKind → Prop
  | .condition spec => ∀ b ∈ spec.branches, b.IsDistinct
  | .gate _ branches _ => ∀ b ∈ branches, b.IsDistinct
  | .strategy _ _ | .assessment _ | .note _ => True

theorem givesBack_gate {field : String} {branches : List Branch} {nullBranch : Option String}
    (h : ∀ b ∈ branches, b.IsPlain) :
    GivesBack (gateOfForm? (.record ([("attribute", .text field),
      ("branches", ofList Branch.form branches)] ++ Form.optional "null_branch" .text nullBranch)))
      (.gate field branches nullBranch) (∀ b ∈ branches, b.IsDistinct) := by
  have hrecord : IsRecord ["attribute", "branches", "null_branch"] (.record
      ([("attribute", .text field), ("branches", ofList Branch.form branches)] ++
        Form.optional "null_branch" .text nullBranch)) :=
    ⟨_, rfl, (Named.always _).append (.optional ..)⟩
  obtain ⟨m, hm, hget⟩ := hrecord.members? (by decide) ["attribute", "branches", "null_branch"]
  have hfield : m.required text? "attribute" = some field :=
    required_of_get? (d := .text field) (by simp [hget])
  obtain ⟨bs, hread, hiff⟩ := givesBack_list fun b hb => Branch.givesBack (h b hb)
  have hbranches : m.required (list? Branch.ofForm?) "branches" = some bs :=
    (required_of_get? (by simp [hget])).trans hread
  have hnull : m.optional text? "null_branch" = some nullBranch :=
    optional_of_get? .text (by simp [hget]) (by simp)
  refine ⟨.gate field bs nullBranch, ?_, ?_⟩
  · rw [gateOfForm?, hm]
    simp [hfield, hbranches, hnull]
  · simp [hiff]

theorem strategyOfForm?_record {id : String} {params : Dict Value} (hsorted : params.Sorted)
    (h : ∀ v ∈ params.values, v.IsPlain) :
    strategyOfForm? (.record ([("strategy_id", .text id)] ++
      Form.unlessEmpty "params" (Form.ofDict Document.ofValue) params)) =
      some (.strategy id params) := by
  have hrecord : IsRecord ["strategy_id", "params"] (.record ([("strategy_id", .text id)] ++
      Form.unlessEmpty "params" (Form.ofDict Document.ofValue) params)) :=
    ⟨_, rfl, (Named.always _).append (.unlessEmpty ..)⟩
  obtain ⟨m, hm, hget⟩ := hrecord.members? (by decide) ["strategy_id", "params"]
  have hid : m.required text? "strategy_id" = some id :=
    required_of_get? (d := .text id) (by simp [hget])
  have hparams : m.orElse (dict? Value.ofForm?) "params" [] = some params :=
    orElse_unlessEmpty (Form.ofDict Document.ofValue) (by simp [hget])
      (dict?_ofDict hsorted fun v hv => Value.ofForm?_ofValue (h v hv))
  rw [strategyOfForm?, hm]
  simp [hid, hparams]

theorem givesBack {k : NodeKind} (h : k.IsPlain) :
    GivesBack (ofForm? (.record k.fields)) k k.IsDistinct := by
  cases k with
  | condition spec =>
    have hread : ofForm? (.record (condition spec).fields) =
        (ConditionSpec.ofForm? (.record spec.fields)).map .condition := by
      rw [fields, ofForm?, tagged?_record (not_mem_of_fields (.condition spec) rfl)]
      rfl
    rw [hread]
    exact (ConditionSpec.givesBack h).map (by simp)
  | gate field branches nullBranch =>
    rw [fields, ofForm?, List.cons_append, tagged?_record]
    · exact givesBack_gate h
    · exact not_mem_of_fields (.gate field branches nullBranch) rfl
  | strategy id params =>
    rw [fields, ofForm?, List.cons_append, tagged?_record]
    · exact givesBack_of_eq (strategyOfForm?_record h.1 h.2)
    · exact not_mem_of_fields (.strategy id params) rfl
  | assessment id => exact givesBack_of_eq rfl
  | note text =>
    cases text with
    | none => exact givesBack_of_eq rfl
    | some s => exact givesBack_of_eq rfl

end NodeKind

namespace Node

/-- The members of a node that are not its kind's. -/
def ownFields (n : Node) : List (String × Document) :=
  [("node_key", .text n.key)] ++
    Form.optional "name" .text n.name ++
    Form.optional "parent_node_id" .text n.parent ++
    Form.optional "branch_label" .text n.label ++
    [("is_root", .flag n.isRoot)]

theorem form_eq (n : Node) : n.form = .record (n.ownFields ++ n.kind.fields) := rfl

theorem named_ownFields (n : Node) : Named names n.ownFields :=
  ((((Named.always _).append (.optional ..)).append (.optional ..)).append (.optional ..)).append
    (.always _)

theorem isRecord_form (n : Node) : IsRecord (names ++ "type" :: n.kind.names) n.form :=
  ⟨_, n.form_eq, n.named_ownFields.append n.kind.named⟩

/-- No member of a kind is called like one of a node's own. -/
theorem not_mem_kind {k : NodeKind} {name : String} (h : name ∈ names) :
    name ∉ Dict.keys k.fields :=
  fun hmem => (List.nodup_append.1 k.nodup_names).2.2 name h name (k.named.subset hmem) rfl

theorem get?_ownFields {n : Node} {name : String} (h : name ∈ names) :
    n.form.get? name = Dict.get? n.ownFields name := by
  rw [form_eq, Document.get?_record, Dict.get?_append, Dict.get?_of_not_mem (not_mem_kind h),
    Option.or_none]

theorem get?_kind {n : Node} {name : String} (h : name ∉ names) :
    n.form.get? name = Dict.get? n.kind.fields name := by
  have hown : name ∉ Dict.keys n.ownFields := fun hmem => h (n.named_ownFields.subset hmem)
  rw [form_eq, Document.get?_record, Dict.get?_append, Dict.get?_of_not_mem hown, Option.none_or]

/-- What a node's own members leave is its kind's. -/
theorem kindMembers_fields (n : Node) :
    kindMembers ((n.ownFields ++ n.kind.fields).map fun m => (.text m.1, m.2)) =
      .record n.kind.fields := by
  have hkept : ∀ name, (!names.any fun known => text? (.text name) == some known) =
      decide (name ∉ names) := by
    intro name
    rw [Bool.eq_iff_iff]
    simpa using List.forall_mem_ne
  rw [kindMembers, List.filter_map, List.filter_append, List.filter_eq_nil_iff.2, List.nil_append,
    List.filter_eq_self.2]
  · rfl
  · intro m hm
    have hname : m.1 ∉ names := fun h => not_mem_kind h (List.mem_map_of_mem hm)
    exact (hkept m.1).trans (decide_eq_true hname)
  · intro m hm
    have hname : m.1 ∈ names := n.named_ownFields.mem hm
    exact Bool.eq_false_iff.1 ((hkept m.1).trans (decide_eq_false (not_not_intro hname)))

theorem givesBack {n : Node} (h : n.kind.IsPlain) :
    GivesBack (ofForm? n.form) n n.kind.IsDistinct := by
  obtain ⟨m, hm, hmembers⟩ := n.isRecord_form.members? n.kind.nodup_names names
  have hget : ∀ name ∈ names, m.get? name = Dict.get? n.ownFields name := fun name hname =>
    (hmembers name).trans (get?_ownFields hname)
  have hkey : m.required text? "node_key" = some n.key :=
    required_of_get? (d := .text n.key) (by rw [hget _ (by decide)]; simp [ownFields])
  have hname : m.optional text? "name" = some n.name :=
    optional_of_get? .text (by rw [hget _ (by decide)]; simp [ownFields]) (by simp)
  have hparent : m.optional text? "parent_node_id" = some n.parent :=
    optional_of_get? .text (by rw [hget _ (by decide)]; simp [ownFields]) (by simp)
  have hlabel : m.optional text? "branch_label" = some n.label :=
    optional_of_get? .text (by rw [hget _ (by decide)]; simp [ownFields]) (by simp)
  have hroot : m.orElse flag? "is_root" false = some n.isRoot :=
    orElse_of_get? (d := .flag n.isRoot) (by rw [hget _ (by decide)]; simp [ownFields])
  obtain ⟨kind, hkind, hiff⟩ := NodeKind.givesBack h
  refine ⟨{ n with kind := kind }, ?_, ?_⟩
  · rw [form_eq, Document.record] at hm ⊢
    rw [ofForm?, hm, kindMembers_fields]
    simp [hkey, hname, hparent, hlabel, hroot, hkind]
  · rw [← hiff]
    obtain ⟨key, name, parent, label, isRoot, k⟩ := n
    simp

end Node

theorem Node.isDistinct_iff (n : Node) : n.kind.IsDistinct ↔ ∀ b ∈ n.branches, b.IsDistinct := by
  obtain ⟨key, name, parent, label, isRoot, kind⟩ := n
  cases kind <;> simp [branches, NodeKind.IsDistinct]

/-! ### Trees -/

theorem TreeDraft.isRecord_form (t : TreeDraft) : IsRecord knownMembers t.form :=
  ⟨_, rfl, ((((Named.always _).append (.optional ..)).append (.always _)).append
    (.optional ..)).append (.always _)⟩

theorem TreeDraft.givesBack {t : TreeDraft} (h : t.IsPlain) :
    GivesBack (ofForm? t.form) t (∀ n ∈ t.nodes, n.kind.IsDistinct) := by
  obtain ⟨m, hm, hget⟩ := t.isRecord_form.members? (by decide)
    ["id", "name", "version", "default_strategy", "nodes"]
  have hid : m.required text? "id" = some t.id :=
    required_of_get? (d := .text t.id) (by simp [hget, form])
  have hname : m.optional text? "name" = some t.name :=
    optional_of_get? .text (by simp [hget, form]) (by simp)
  have hversion : m.required count? "version" = some t.version :=
    (required_of_get? (by simp [hget, form])).trans (count?_ofCount t.version)
  have hdefault : m.optional text? "default_strategy" = some t.defaultStrategy :=
    optional_of_get? .text (by simp [hget, form]) (by simp)
  obtain ⟨nodes, hread, hiff⟩ := givesBack_list fun n hn => Node.givesBack (h n hn)
  have hnodes : m.required (list? Node.ofForm?) "nodes" = some nodes :=
    (required_of_get? (by simp [hget, form])).trans hread
  refine ⟨{ t with nodes := nodes }, ?_, ?_⟩
  · rw [ofForm?, hm]
    simp [hid, hname, hversion, hdefault, hnodes]
  · rw [← hiff]
    obtain ⟨id, name, version, defaultStrategy, ns⟩ := t
    simp

end Lending
