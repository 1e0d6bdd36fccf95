import Lending.Policy.TreeDocument
import Lending.Proofs.Checks
import Lending.Proofs.Form.Trees
import Lending.Proofs.Policy.Members

/-! Trees that are written and read as policy documents.

Policy documents have long and short names, bare labels, single values and several ways to say the
same; a form has one. What a reader makes of a document with finite numbers is plain, and no
condition in it is a scorecard gate's (`TreeDraft.readable_of_read`). Of every tree like that the
reader makes the same tree from its form, and has nothing to warn of (`TreeDraft.read_form`). -/
namespace Lending

/-! ### What readers make -/

namespace Branch

theorem isPlain_ofLabel (label : String) : (ofLabel label).IsPlain where
  values := List.forall_mem_nil _
  min := by simp [ofLabel]
  max := by simp [ofLabel]
  threshold := by simp [ofLabel]

theorem isPlain_readValues {d : Document} (hfinite : ∀ x ∈ d.numbers, x.isFinite = true) :
    ∀ v ∈ readValues d, v.IsPlain := by
  rw [readValues]
  split
  · next items hget =>
    rw [List.forall_mem_map]
    intro e he
    refine Document.isPlain_toValue fun x hx => hfinite x ?_
    exact Document.numbers_subset_of_get? hget (Document.numbers_subset_items he hx)
  · next single hget =>
    rw [List.forall_mem_singleton]
    exact Document.isPlain_toValue fun x hx => hfinite x (Document.numbers_subset_of_get? hget hx)
  · intro v hv
    obtain ⟨e, hget, rfl⟩ := Option.map_eq_some_iff.1 (Option.mem_toList.1 hv)
    exact Document.isPlain_toValue fun x hx => hfinite x (Document.numbers_subset_of_get? hget hx)

theorem isPlain_of_read {d : Document} {b : Branch} (hfinite : ∀ x ∈ d.numbers, x.isFinite = true)
    (h : read d = .ok b) : b.IsPlain := by
  rw [read] at h
  split at h
  · cases h
    exact isPlain_ofLabel _
  · obtain ⟨label, -, h⟩ := bind_ok_iff.1 h
    obtain ⟨min, hmin, h⟩ := bind_ok_iff.1 h
    obtain ⟨max, hmax, h⟩ := bind_ok_iff.1 h
    cases h
    refine ⟨isPlain_readValues hfinite, ?_, ?_, ?_⟩
    · exact fun x hx => hfinite x (Document.mem_numbers_of_optionalNumber hmin x hx)
    · exact fun x hx => hfinite x (Document.mem_numbers_of_optionalNumber hmax x hx)
    · intro v hv
      obtain ⟨e, hget, rfl⟩ := Option.map_eq_some_iff.1 hv
      exact Document.isPlain_toValue fun x hx => hfinite x (Document.numbers_subset_of_get? hget hx)

theorem isPlain_of_readList {d : Document} {bs : List Branch}
    (hfinite : ∀ x ∈ d.numbers, x.isFinite = true) (h : readList d = .ok bs) :
    ∀ b ∈ bs, b.IsPlain := by
  intro b hb
  obtain ⟨e, he, hread⟩ := exists_of_mapM_ok h b hb
  exact isPlain_of_read (fun x hx => hfinite x (Document.numbers_subset_of_mem_items he hx)) hread

end Branch

theorem Clause.isPlain_of_read {d : Document} {c : Clause}
    (hfinite : ∀ x ∈ d.numbers, x.isFinite = true) (h : read d = .ok c) : c.value.IsPlain := by
  obtain ⟨field, -, h⟩ := bind_ok_iff.1 h
  obtain ⟨text, -, h⟩ := bind_ok_iff.1 h
  obtain ⟨operator, -, h⟩ := bind_ok_iff.1 h
  split at h
  · next v hget =>
    cases h
    exact Document.isPlain_toValue fun x hx => hfinite x (Document.numbers_subset_of_get? hget hx)
  · cases h

namespace NodeKind

/-- No condition is a scorecard gate's; a gate has a kind of its own. -/
def IsCanonical : NodeKind → Prop
  | .condition spec => spec.type ≠ .scorecardGate
  | .gate _ _ _ | .strategy _ _ | .assessment _ | .note _ => True

theorem of_readGate {d : Document} {k : NodeKind} (hfinite : ∀ x ∈ d.numbers, x.isFinite = true)
    (h : readGate d = .ok k) : k.IsPlain ∧ k.IsCanonical := by
  obtain ⟨field, -, h⟩ := bind_ok_iff.1 h
  obtain ⟨branches, hbranches, h⟩ := bind_ok_iff.1 h
  cases h
  exact ⟨Branch.isPlain_of_readList hfinite hbranches, trivial⟩

theorem of_readSpec {d : Document} {type : ConditionType} {k : NodeKind}
    (htype : type ≠ .scorecardGate) (hfinite : ∀ x ∈ d.numbers, x.isFinite = true)
    (h : readSpec type d = .ok k) : k.IsPlain ∧ k.IsCanonical := by
  obtain ⟨operator, -, h⟩ := bind_ok_iff.1 h
  obtain ⟨logic, -, h⟩ := bind_ok_iff.1 h
  obtain ⟨clauses, hclauses, h⟩ := bind_ok_iff.1 h
  obtain ⟨branches, hbranches, h⟩ := bind_ok_iff.1 h
  cases h
  refine ⟨⟨Branch.isPlain_of_readList hfinite hbranches, fun c hc => ?_⟩, htype⟩
  obtain ⟨e, he, hread⟩ := exists_of_mapM_ok hclauses c hc
  exact Clause.isPlain_of_read
    (fun x hx => hfinite x (Document.numbers_subset_of_mem_items he hx)) hread

theorem of_readCondition {d : Document} {key : String} {k : NodeKind}
    (hfinite : ∀ x ∈ d.numbers, x.isFinite = true) (h : readCondition key d = .ok k) :
    k.IsPlain ∧ k.IsCanonical := by
  obtain ⟨type, -, h⟩ := bind_ok_iff.1 h
  split at h
  · exact of_readGate hfinite h
  · next type htype _ => exact of_readSpec htype hfinite h
  · cases h

/-- A kind that is read is plain and canonical. -/
theorem of_read {d : Document} {key : String} {k : NodeKind}
    (hfinite : ∀ x ∈ d.numbers, x.isFinite = true) (h : read key d = .ok k) :
    k.IsPlain ∧ k.IsCanonical := by
  rw [read] at h
  split at h
  · exact of_readCondition hfinite h
  · exact of_readGate hfinite h
  · obtain ⟨id, -, h⟩ := bind_ok_iff.1 h
    obtain ⟨params, hparams, h⟩ := bind_ok_iff.1 h
    cases h
    exact ⟨Document.isPlain_of_optionalValues hfinite hparams, trivial⟩
  · obtain ⟨id, -, h⟩ := bind_ok_iff.1 h
    cases h
    exact ⟨trivial, trivial⟩
  · cases h
    exact ⟨trivial, trivial⟩
  · cases h
  · cases h

end NodeKind

theorem Node.of_read {d : Document} {n : Node} (hfinite : ∀ x ∈ d.numbers, x.isFinite = true)
    (h : (read d).outcome = .ok n) : n.kind.IsPlain ∧ n.kind.IsCanonical := by
  rw [read] at h
  split at h
  · cases h
  · next key _ =>
    rw [Noted.outcome_bind, Noted.outcome_warn] at h
    obtain ⟨kind, hkind, h⟩ := bind_ok_iff.1 (show readBody key d = .ok n from h)
    obtain ⟨isRoot, -, h⟩ := bind_ok_iff.1 h
    cases h
    exact NodeKind.of_read hfinite hkind

/-- Plain, and with no condition that is a scorecard gate's. -/
structure TreeDraft.IsReadable (t : TreeDraft) : Prop where
  plain : t.IsPlain
  canonical : ∀ n ∈ t.nodes, n.kind.IsCanonical

/-- **What is read from a document with finite numbers can be read again.** -/
theorem TreeDraft.isReadable_of_read {d : Document} {t : TreeDraft}
    (hfinite : ∀ x ∈ d.numbers, x.isFinite = true) (h : (read d).outcome = .ok t) :
    t.IsReadable := by
  have hnodes : ∀ n ∈ t.nodes, n.kind.IsPlain ∧ n.kind.IsCanonical := by
    simp only [read, Noted.outcome_bind, Noted.outcome_warn] at h
    obtain ⟨id, -, h⟩ := bind_ok_iff.1 h
    obtain ⟨-, -, h⟩ := bind_ok_iff.1 h
    obtain ⟨nodes, hread, h⟩ := bind_ok_iff.1 h
    obtain ⟨version, -, h⟩ := bind_ok_iff.1 h
    cases h
    rw [outcome_forEach] at hread
    intro n hn
    obtain ⟨e, he, hnode⟩ := exists_of_mapM_ok hread n hn
    exact Node.of_read (fun x hx => hfinite x (Document.numbers_subset_of_mem_items he hx)) hnode
  exact ⟨fun n hn => (hnodes n hn).1, fun n hn => (hnodes n hn).2⟩

/-! ### What forms are read as -/

theorem Operator.read_name (op : Operator) : read op.name = .ok op := by
  cases op <;> rfl

theorem Logic.read_form {d : Document} {name : String} {l : Logic} (h : d.get? name = some l.form) :
    read d name = .ok l := by
  have htext : d.optionalText name = some l.name :=
    Document.optionalText_of_get? (by rw [h, form, Option.map_some])
  rw [read, htext]
  cases l <;> rfl

theorem Branch.readValues_form {b : Branch} (h : b.IsPlain) : readValues b.form = b.values := by
  have hvalue : b.form.get? "value" = none := by simp [form]
  have hvalues : b.form.get? "values" =
      if b.values ≠ [] then some (.sequence (b.values.map .ofValue)) else none := by
    simp [form, Form.ofList]
  by_cases hempty : b.values = []
  · rw [readValues, hvalues, if_neg (not_not_intro hempty), hvalue, hempty]
    rfl
  · rw [readValues, hvalues, if_pos hempty]
    show (b.values.map .ofValue).map Document.toValue = b.values
    rw [List.map_map]
    exact (List.map_congr_left fun v hv => Document.toValue_ofValue (h.values v hv)).trans
      (List.map_id _)

theorem Branch.read_form {b : Branch} (h : b.IsPlain) : read b.form = .ok b := by
  have hlabel : b.form.requiredText "label" = .ok b.label :=
    Document.requiredText_of_get? (by simp [form])
  have hmin : b.form.optionalNumber "min" = .ok b.min :=
    Document.optionalNumber_of_get? (by simp [form])
  have hmax : b.form.optionalNumber "max" = .ok b.max :=
    Document.optionalNumber_of_get? (by simp [form])
  have hthreshold : (b.form.get? "threshold").map Document.toValue = b.threshold := by
    have hget : b.form.get? "threshold" = b.threshold.map .ofValue := by simp [form]
    rw [hget, Option.map_map]
    exact (Option.map_congr fun v hv => Document.toValue_ofValue (h.threshold v hv)).trans
      Option.map_id'
  have htext : b.form.text? = none := rfl
  rw [read, htext, hlabel, readValues_form h, hthreshold]
  simp only [hmin, hmax]
  rfl

theorem Branch.readList_form {d : Document} {bs : List Branch}
    (hget : d.get? "branches" = some (Form.ofList form bs)) (h : ∀ b ∈ bs, b.IsPlain) :
    readList d = .ok bs := by
  rw [readList, Document.optionalItems_of_get? hget]
  exact mapM_map_ok fun b hb => read_form (h b hb)

theorem Clause.read_form {c : Clause} (h : c.value.IsPlain) : read c.form = .ok c := by
  have hfield : c.form.requiredText "attribute" = .ok c.field :=
    Document.requiredText_of_get? (by simp [form])
  have hoperator : c.form.requiredText "operator" = .ok c.operator.name :=
    Document.requiredText_of_get? (by simp [form, Operator.form])
  have hvalue : c.form.get? "value" = some (.ofValue c.value) := by simp [form]
  rw [read, hfield, hoperator, hvalue]
  refine bind_ok_iff.2 ⟨c.field, rfl, bind_ok_iff.2 ⟨c.operator.name, rfl, ?_⟩⟩
  refine bind_ok_iff.2 ⟨c.operator, Operator.read_name c.operator, ?_⟩
  simp only [Document.toValue_ofValue h]
  rfl

namespace NodeKind

theorem readGate_form {d : Document} {field : String} {branches : List Branch}
    {nullBranch : Option String} (hfield : d.get? "attribute" = some (.text field))
    (hbranches : d.get? "branches" = some (Form.ofList Branch.form branches))
    (hnull : d.get? "null_branch" = nullBranch.map .text) (h : ∀ b ∈ branches, b.IsPlain) :
    readGate d = .ok (.gate field branches nullBranch) := by
  rw [readGate, Document.requiredText_of_get? hfield, Branch.readList_form hbranches h,
    Document.optionalText_of_get? hnull]
  rfl

theorem readSpec_fields {d : Document} {s : ConditionSpec}
    (hget : ∀ name ∈ ConditionSpec.names, d.get? name = Dict.get? s.fields name) (h : s.IsPlain) :
    readSpec s.type d = .ok (.condition s) := by
  have hoperator : d.optionalWord Operator.read "operator" = .ok s.operator :=
    Document.optionalWord_of_get? (by rw [hget _ (by decide)]; simp [ConditionSpec.fields]; rfl)
      Operator.read_name
  have hlogic : Logic.read d "compound_logic" = .ok s.logic :=
    Logic.read_form (by rw [hget _ (by decide)]; simp [ConditionSpec.fields])
  have hclauses : ((d.optionalItems "compound_conditions").getD []).mapM Clause.read =
      .ok s.clauses := by
    have hitems : (d.optionalItems "compound_conditions").getD [] = s.clauses.map Clause.form := by
      refine Document.optionalItems_unlessEmpty ?_
      rw [hget _ (by decide)]
      simp [ConditionSpec.fields]
    rw [hitems]
    exact mapM_map_ok fun c hc => Clause.read_form (h.clauses c hc)
  have hbranches : Branch.readList d = .ok s.branches :=
    Branch.readList_form (by rw [hget _ (by decide)]; simp [ConditionSpec.fields]) h.branches
  have hfield : d.optionalText "attribute" = s.field :=
    Document.optionalText_of_get? (by rw [hget _ (by decide)]; simp [ConditionSpec.fields])
  have hnull : d.optionalText "null_branch" = s.nullBranch :=
    Document.optionalText_of_get? (by rw [hget _ (by decide)]; simp [ConditionSpec.fields])
  rw [readSpec, hoperator, hlogic, hclauses, hbranches, hfield, hnull]
  rfl

theorem find?_name (t : ConditionType) : ConditionType.all.find? (·.name == t.name) = some t := by
  cases t <;> rfl

theorem readCondition_fields {d : Document} {s : ConditionSpec} (key : String)
    (hget : ∀ name ∈ ConditionSpec.names, d.get? name = Dict.get? s.fields name) (h : s.IsPlain)
    (htype : s.type ≠ .scorecardGate) : readCondition key d = .ok (.condition s) := by
  have hname : d.requiredText "condition_type" = .ok s.type.name :=
    Document.requiredText_of_get?
      (by rw [hget _ (by decide)]; simp [ConditionSpec.fields, ConditionType.form])
  refine bind_ok_iff.2 ⟨s.type.name, hname, ?_⟩
  simp only [find?_name]
  exact readSpec_fields hget h

/-- A plain and canonical kind is read from its fields. -/
theorem read_fields {d : Document} {k : NodeKind} (key : String)
    (hget : ∀ name, name ∉ Node.names → d.get? name = Dict.get? k.fields name) (h : k.IsPlain)
    (hcanonical : k.IsCanonical) : read key d = .ok k := by
  have htype : ∀ tag, Dict.get? k.fields "type" = some (.text tag) → typeName d = tag := by
    intro tag htag
    have htext : d.optionalText "type" = some tag :=
      Document.optionalText_of_get? ((hget _ (by decide)).trans htag)
    rw [typeName, htext, Option.getD_some]
  rw [read]
  cases k with
  | condition spec =>
    rw [htype "condition" (by simp [fields])]
    obtain ⟨-, hkind, hdisjoint⟩ := List.nodup_append.1 (nodup_names (.condition spec))
    refine readCondition_fields key (fun name hname => ?_) h hcanonical
    have hown : name ∉ Node.names := fun hn =>
      hdisjoint name hn name (List.mem_cons_of_mem _ hname) rfl
    have hne : "type" ≠ name := fun he => (List.nodup_cons.1 hkind).1 (he ▸ hname)
    rw [hget name hown, fields, Dict.get?_cons, if_neg hne]
  | gate field branches nullBranch =>
    rw [htype "scorecard_gate" (by simp [fields])]
    refine readGate_form ?_ ?_ ?_ h
    · rw [hget _ (by decide)]
      simp [fields]
    · rw [hget _ (by decide)]
      simp [fields]
    · rw [hget _ (by decide)]
      simp [fields]
  | strategy id params =>
    rw [htype "strategy" (by simp [fields])]
    have hid : d.requiredText "strategy_id" = .ok id :=
      Document.requiredText_of_get? (by rw [hget _ (by decide)]; simp [fields])
    have hparams : d.optionalValues "params" = .ok params :=
      Document.optionalValues_unlessEmpty h.1 h.2 (by rw [hget _ (by decide)]; simp [fields])
    exact bind_ok_iff.2 ⟨id, hid, bind_ok_iff.2 ⟨params, hparams, rfl⟩⟩
  | assessment id =>
    rw [htype "assessment" (by simp [fields])]
    have hid : d.requiredText "assessment_id" = .ok id :=
      Document.requiredText_of_get? (by rw [hget _ (by decide)]; simp [fields])
    exact bind_ok_iff.2 ⟨id, hid, rfl⟩
  | note text =>
    rw [htype "annotation" (by simp [fields])]
    have htext : d.optionalText "note" = text :=
      Document.optionalText_of_get? (by rw [hget _ (by decide)]; simp [fields])
    show Except.ok (NodeKind.note (d.optionalText "note")) = _
    rw [htext]

end NodeKind

namespace Node

theorem unknownMembers_form (n : Node) (context : String) :
    n.form.unknownMembers knownMembers context = [] := by
  have hknown : ∀ k : NodeKind, ∀ name ∈ names ++ "type" :: k.names, name ∈ knownMembers := by
    intro k
    cases k <;> rw [NodeKind.names] <;> decide
  exact Document.unknownMembers_of_isRecord n.isRecord_form (hknown n.kind) context

/-- A form has the long names only. -/
theorem optionalText_short (n : Node) {short : String} (h : short ∈ ["key", "parent", "branch"]) :
    n.form.optionalText short = none := by
  have hnames : ∀ k : NodeKind, ∀ short ∈ ["key", "parent", "branch"],
      short ∉ names ∧ short ∉ "type" :: k.names := by
    intro k
    cases k <;> rw [NodeKind.names] <;> decide
  obtain ⟨hown, hkind⟩ := hnames n.kind short h
  have hmem : short ∉ Dict.keys n.kind.fields := fun hmem => hkind (n.kind.named.subset hmem)
  rw [Document.optionalText, get?_kind hown, Dict.get?_of_not_mem hmem, Option.bind_none]

theorem eitherText_form (n : Node) {short long : String} {v : Option String}
    (hshort : short ∈ ["key", "parent", "branch"]) (hlong : n.form.get? long = v.map .text) :
    eitherText n.form short long = v := by
  rw [eitherText, optionalText_short n hshort, Document.optionalText_of_get? hlong]
  rfl

theorem readBody_form {n : Node} (h : n.kind.IsPlain) (hcanonical : n.kind.IsCanonical) :
    readBody n.key n.form = .ok n := by
  have hkind : NodeKind.read n.key n.form = .ok n.kind :=
    NodeKind.read_fields n.key (fun name hname => get?_kind hname) h hcanonical
  have hroot : n.form.optionalFlag "is_root" = .ok (some n.isRoot) :=
    Document.optionalFlag_of_get? (by rw [get?_ownFields (by decide)]; simp [ownFields])
  have hname : n.form.optionalText "name" = n.name :=
    Document.optionalText_of_get? (by rw [get?_ownFields (by decide)]; simp [ownFields])
  have hparent : eitherText n.form "parent" "parent_node_id" = n.parent :=
    n.eitherText_form (by decide) (by rw [get?_ownFields (by decide)]; simp [ownFields])
  have hlabel : eitherText n.form "branch" "branch_label" = n.label :=
    n.eitherText_form (by decide) (by rw [get?_ownFields (by decide)]; simp [ownFields])
  rw [readBody, hkind, hroot, hname, hparent, hlabel]
  rfl

theorem read_form {n : Node} (h : n.kind.IsPlain) (hcanonical : n.kind.IsCanonical) :
    read n.form = pure n := by
  have hkey : eitherText n.form "key" "node_key" = some n.key :=
    n.eitherText_form (by decide) (by rw [get?_ownFields (by decide)]; simp [ownFields])
  rw [read, hkey]
  simp only [unknownMembers_form, readBody_form h hcanonical]
  rfl

end Node

namespace TreeDraft

/-- **A tree is read from its form, and there is nothing to warn of.** -/
theorem read_form {t : TreeDraft} (h : t.IsReadable) : read t.form = pure t := by
  have hid : t.form.requiredText "id" = .ok t.id :=
    Document.requiredText_of_get? (by simp [form])
  have hname : t.form.optionalText "name" = t.name :=
    Document.optionalText_of_get? (by simp [form])
  have hversion : t.form.optionalCount "version" = .ok (some t.version) :=
    Document.optionalCount_of_get? (by simp [form])
  have hdefault : t.form.optionalText "default_strategy" = t.defaultStrategy :=
    Document.optionalText_of_get? (by simp [form])
  have hitems : t.form.optionalItems "nodes" = some (t.nodes.map Node.form) :=
    Document.optionalItems_of_get? (by simp [form])
  have hnodes :
      Noted.forEach Node.read ((t.form.optionalItems "nodes").getD []) = pure t.nodes := by
    rw [hitems, Option.getD_some]
    exact forEach_map_pure fun n hn => Node.read_form (h.plain n hn) (h.canonical n hn)
  have hknown : ∀ context, t.form.unknownMembers knownMembers context = [] :=
    Document.unknownMembers_of_isRecord t.isRecord_form (by decide)
  rw [read, hid, hnodes, hversion, hname, hdefault]
  simp only [hknown]
  rfl

/-- **A tree that was read from a document with finite numbers** is the tree that is read from the
JSON form of it. -/
theorem read_written {d : Document} {t : TreeDraft} (hfinite : ∀ x ∈ d.numbers, x.isFinite = true)
    (h : (read d).outcome = .ok t) : read (Json.kept t.form) = pure t := by
  have hreadable := isReadable_of_read hfinite h
  rw [Json.kept_of_isJson (isJson_form hreadable.plain), read_form hreadable]

/-- A tree in short names: adults are routed to a strategy. -/
def adultsDocument : Document :=
  .record
    [("id", .text "adults"),
      ("nodes", .sequence
        [.record
          [("key", .text "root"), ("condition_type", .text "binary"), ("attribute", .text "age"),
            ("operator", .text ">="),
            ("branches", .sequence
              [.record [("label", .text "Yes"), ("threshold", .integer 18)],
                .record [("label", .text "No"), ("threshold", .null)], .text "Other"])],
        .record
          [("key", .text "standard"), ("parent", .text "root"), ("branch", .text "Yes"),
            ("type", .text "strategy"), ("strategy_id", .text "standard_dual"),
            ("params", .record [("max_amount", .real 5000)])]])]

/-- What is read from it. -/
def adults : TreeDraft where
  id := "adults"
  name := none
  version := 1
  defaultStrategy := none
  nodes :=
    [Node.ofKind "root" (.condition
        { ConditionSpec.ofType .binary (some "age")
            [{ Branch.ofLabel "Yes" with threshold := some (.number (Number.ofInt 18)) },
              { Branch.ofLabel "No" with threshold := some .null }, .ofLabel "Other"] with
          operator := some .gte }),
      { Node.ofKind "standard" (.strategy "standard_dual" [("max_amount", .number 5000)]) with
        parent := some "root"
        label := some "Yes" }]

theorem read_written_adults : (∀ x ∈ adultsDocument.numbers, x.isFinite = true) ∧
    (read adultsDocument).outcome = .ok adults ∧ read (Json.kept adults.form) = pure adults := by
  have hfinite : ∀ x ∈ adultsDocument.numbers, x.isFinite = true := by decide +kernel
  have hread : (read adultsDocument).outcome = .ok adults := by rfl
  exact ⟨hfinite, hread, read_written hfinite hread⟩

end TreeDraft

end Lending
