import Lending.Form.Members
import Lending.Proofs.Document
import Mathlib.Data.List.Nodup

/-! Reading the form of a structure.

A structure's form lists its members under distinct names, some of them only when there is
something to say, so under each name its reader finds the member that was written or nothing.
`GivesBack` says what reading a form comes to: there is a value, and it is the one that was
written exactly if a condition holds. It is stated member by member and goes through lists and
dictionaries. -/
namespace Lending

namespace Form
variable {α : Type}

@[simp] theorem get?_optional (name key : String) (f : α → Document) (v : Option α) :
    Dict.get? (optional name f v) key = if name = key then v.map f else none := by
  cases v with
  | none => exact (ite_self none).symm
  | some a => rfl

@[simp] theorem get?_unlessEmpty (name key : String) (f : List α → Document) (items : List α) :
    Dict.get? (unlessEmpty name f items) key =
      if name = key ∧ items ≠ [] then some (f items) else none := by
  cases items with
  | nil => simp [unlessEmpty]
  | cons a rest => simp [unlessEmpty]

theorem forall_mem_optional {P : String × Document → Prop} {name : String} {f : α → Document}
    {v : Option α} : (∀ m ∈ optional name f v, P m) ↔ ∀ a ∈ v, P (name, f a) := by
  cases v with
  | none => simp [Form.optional]
  | some a => simp [Form.optional]

theorem forall_mem_unlessEmpty {P : String × Document → Prop} {name : String}
    {f : List α → Document} {items : List α} :
    (∀ m ∈ unlessEmpty name f items, P m) ↔ (items ≠ [] → P (name, f items)) := by
  cases items with
  | nil => simp [unlessEmpty]
  | cons a rest => simp [unlessEmpty]

/-- Members under names of a list, in its order. -/
def Named (names : List String) (members : List (String × Document)) : Prop :=
  (members.map Prod.fst).Sublist names

namespace Named
variable {names names' : List String} {members members' : List (String × Document)}

theorem always (members : List (String × Document)) : Named (members.map Prod.fst) members :=
  List.Sublist.refl _

theorem optional (name : String) (f : α → Document) (v : Option α) :
    Named [name] (optional name f v) := by
  cases v with
  | none => exact List.nil_sublist _
  | some a => exact List.Sublist.refl _

theorem unlessEmpty (name : String) (f : List α → Document) (items : List α) :
    Named [name] (unlessEmpty name f items) := by
  cases items with
  | nil => exact List.nil_sublist _
  | cons a rest => exact List.Sublist.refl _

theorem append (h : Named names members) (h' : Named names' members') :
    Named (names ++ names') (members ++ members') := by
  rw [Named, List.map_append]
  exact List.Sublist.append h h'

theorem nodup (h : Named names members) (hnames : names.Nodup) : (members.map Prod.fst).Nodup :=
  hnames.sublist h

theorem mem (h : Named names members) {m : String × Document} (hm : m ∈ members) : m.1 ∈ names :=
  h.subset (List.mem_map_of_mem hm)

end Named

@[simp] theorem text?_text (s : String) : text? (.text s) = some s := rfl

theorem occurrences_record (name : String) (members : List (String × Document)) :
    occurrences name (members.map fun m => (.text m.1, m.2)) =
      (members.map Prod.fst).count name := by
  induction members with
  | nil => rfl
  | cons m rest ih =>
    rw [occurrences] at ih ⊢
    rw [List.map_cons, List.map_cons, List.filter_cons, List.count_cons, ← ih, text?_text,
      Option.some_beq_some]
    cases m.1 == name <;> rfl

/-- A record with members under names of a list, in its order. -/
def IsRecord (names : List String) (d : Document) : Prop :=
  ∃ members, d = .record members ∧ Named names members

/-- A structure's reader finds the members of a record. -/
theorem IsRecord.members? {names : List String} {d : Document} (h : IsRecord names d)
    (hnames : names.Nodup) (known : List String) :
    ∃ m, Form.members? known d = some m ∧ ∀ name, m.get? name = d.get? name := by
  obtain ⟨members, rfl, hnamed⟩ := h
  have htexts : ((members.map fun m => (Document.text m.1, m.2)).all
      fun m => (text? m.1).isSome) = true := by
    simp
  have honce : (known.all fun name =>
      decide (occurrences name (members.map fun m => (Document.text m.1, m.2)) ≤ 1)) = true := by
    simp only [List.all_eq_true, decide_eq_true_eq, occurrences_record]
    exact fun name _ => List.nodup_iff_count_le_one.1 (hnamed.nodup hnames) name
  refine ⟨⟨Document.memberOf? (members.map fun m => (.text m.1, m.2))⟩, ?_, fun _ => rfl⟩
  rw [Document.record, Form.members?, htexts, honce, Bool.and_self, if_pos rfl]

/-- The tag of a variant whose other members have names of their own. -/
theorem tagged?_record {name : String} {members : List (String × Document)}
    (h : name ∉ members.map Prod.fst) (tag : Document) :
    tagged? name (.record ((name, tag) :: members)) = some ⟨tag, .record members⟩ := by
  have hne : ∀ m ∈ members.map fun m => (Document.text m.1, m.2),
      (text? m.1 == some name) = false := by
    intro m hm
    obtain ⟨m', hm', rfl⟩ := List.mem_map.1 hm
    exact beq_eq_false_iff_ne.2 fun he => h (Option.some.inj he ▸ List.mem_map_of_mem hm')
  have hothers : (members.map fun m => (Document.text m.1, m.2)).filter
      (fun m => text? m.1 == some name) = [] :=
    List.filter_eq_nil_iff.2 fun m hm => by rw [hne m hm]; exact Bool.false_ne_true
  have hrest : (members.map fun m => (Document.text m.1, m.2)).filter
      (fun m => text? m.1 != some name) = members.map fun m => (Document.text m.1, m.2) :=
    List.filter_eq_self.2 fun m hm => by rw [bne, hne m hm]; rfl
  rw [Document.record, List.map_cons, tagged?]
  simp only [List.filter_cons, text?_text, beq_self_eq_true, bne_self_eq_false, if_true, hothers,
    Bool.false_eq_true, if_false, hrest, Document.record]

/-! ### What is given back -/

/-- There is a value, and it is the one that was written exactly if a condition holds. -/
def GivesBack (read : Option α) (written : α) (condition : Prop) : Prop :=
  ∃ a, read = some a ∧ (a = written ↔ condition)

theorem givesBack_of_eq {read : Option α} {written : α} (h : read = some written) :
    GivesBack read written True :=
  ⟨written, h, iff_of_true rfl trivial⟩

theorem GivesBack.congr {read : Option α} {written : α} {condition condition' : Prop}
    (h : GivesBack read written condition) (hiff : condition ↔ condition') :
    GivesBack read written condition' := by
  obtain ⟨a, hread, h⟩ := h
  exact ⟨a, hread, h.trans hiff⟩

/-- A value inside of another is given back like that one. -/
theorem GivesBack.map {β : Type} {read : Option α} {written : α} {condition : Prop} {g : α → β}
    (h : GivesBack read written condition) (hg : ∀ a b, g a = g b → a = b) :
    GivesBack (read.map g) (g written) condition := by
  obtain ⟨a, hread, hiff⟩ := h
  refine ⟨g a, by rw [hread, Option.map_some], ?_⟩
  exact ⟨fun he => hiff.1 (hg _ _ he), fun hc => congrArg g (hiff.2 hc)⟩

section Members
variable {m : Members} {name : String} {f : Document → Option α}

theorem required_of_get? {d : Document} (h : m.get? name = some d) : m.required f name = f d := by
  rw [Members.required, h, Option.bind_some]

theorem orElse_of_get? {d : Document} {missing : α} (h : m.get? name = some d) :
    m.orElse f name missing = f d := by
  rw [Members.orElse, h]

/-- A list that is left out when it is empty. -/
theorem orElse_unlessEmpty {f : Document → Option (List α)} (form : List α → Document)
    {items : List α} (h : m.get? name = if items ≠ [] then some (form items) else none)
    (hread : f (form items) = some items) : m.orElse f name [] = some items := by
  rw [Members.orElse, h]
  by_cases hempty : items = []
  · rw [hempty]
    rfl
  · rw [if_pos hempty]
    exact hread

/-- An optional member, of which null says nothing. -/
theorem givesBack_optional (form : α → Document) {v : Option α} {condition : α → Prop}
    (h : m.get? name = v.map form)
    (hread : ∀ a ∈ v, GivesBack (f (form a)) a (condition a)) :
    GivesBack (m.optional f name) v (∀ a ∈ v, form a ≠ .null ∧ condition a) := by
  rw [Members.optional, h]
  cases v with
  | none => exact ⟨none, rfl, by simp⟩
  | some a =>
    obtain ⟨b, hb, hiff⟩ := hread a rfl
    by_cases hnull : form a = .null
    · exact ⟨none, by rw [Option.map_some, hnull], by simp [hnull]⟩
    · exact ⟨some b, by simp [hb], by simp [hiff, hnull]⟩

theorem optional_of_get? (form : α → Document) {v : Option α} (h : m.get? name = v.map form)
    (hread : ∀ a ∈ v, form a ≠ .null ∧ f (form a) = some a) : m.optional f name = some v := by
  obtain ⟨w, hw, hiff⟩ := givesBack_optional form h fun a ha => givesBack_of_eq (hread a ha).2
  rw [hw, hiff.2 fun a ha => ⟨(hread a ha).1, trivial⟩]

end Members

section Collections
variable {f : Document → Option α} {form : α → Document} {condition : α → Prop}

theorem givesBack_mapM {β : Type} {f : β → Option α} {form : α → β} {condition : α → Prop}
    {items : List α} (h : ∀ a ∈ items, GivesBack (f (form a)) a (condition a)) :
    GivesBack ((items.map form).mapM f) items (∀ a ∈ items, condition a) := by
  induction items with
  | nil => exact ⟨[], rfl, by simp⟩
  | cons a rest ih =>
    obtain ⟨ha, hrest⟩ := List.forall_mem_cons.1 h
    obtain ⟨b, hb, hbiff⟩ := ha
    obtain ⟨bs, hbs, hbsiff⟩ := ih hrest
    refine ⟨b :: bs, ?_, ?_⟩
    · rw [List.map_cons, List.mapM_cons, hb, hbs]
      rfl
    · rw [List.cons.injEq, hbiff, hbsiff, List.forall_mem_cons]

/-- A list is given back if its items are. -/
theorem givesBack_list {items : List α}
    (h : ∀ a ∈ items, GivesBack (f (form a)) a (condition a)) :
    GivesBack (list? f (ofList form items)) items (∀ a ∈ items, condition a) :=
  givesBack_mapM h

theorem list?_ofList {items : List α} (h : ∀ a ∈ items, f (form a) = some a) :
    list? f (ofList form items) = some items := by
  obtain ⟨items', h', hiff⟩ := givesBack_list fun a ha => givesBack_of_eq (h a ha)
  rw [h', hiff.2 fun _ _ => trivial]

/-- A dictionary is given back if its values are. -/
theorem givesBack_dict {d : Dict α} (hsorted : d.Sorted)
    (h : ∀ a ∈ d.values, GivesBack (f (form a)) a (condition a)) :
    GivesBack (dict? f (ofDict form d)) d (∀ a ∈ d.values, condition a) := by
  -- Each entry is read under its own key, so the entries are in order again.
  have hentry : ∀ e ∈ d, ∃ e', entryOf? f (.text e.1, form e.2) = some e' ∧ e'.1 = e.1 ∧
      (e' = e ↔ condition e.2) := by
    rintro ⟨key, a⟩ he
    obtain ⟨b, hb, hbiff⟩ := h a (List.mem_map_of_mem he)
    exact ⟨(key, b), by simp [entryOf?, hb], rfl, by simp [hbiff]⟩
  have hentries : ∃ d', (d.map fun e => (Document.text e.1, form e.2)).mapM (entryOf? f) = some d' ∧
      d'.map Prod.fst = d.map Prod.fst ∧ (d' = d ↔ ∀ e ∈ d, condition e.2) := by
    clear h hsorted
    induction d with
    | nil => exact ⟨[], rfl, rfl, by simp⟩
    | cons e rest ih =>
      obtain ⟨he, hrest⟩ := List.forall_mem_cons.1 hentry
      obtain ⟨e', he', hkey, hiff⟩ := he
      obtain ⟨rest', hrest', hkeys, hrestiff⟩ := ih hrest
      refine ⟨e' :: rest', ?_, ?_, ?_⟩
      · rw [List.map_cons, List.mapM_cons, he', hrest']
        rfl
      · rw [List.map_cons, List.map_cons, hkey, hkeys]
      · rw [List.cons.injEq, hiff, hrestiff, List.forall_mem_cons]
  obtain ⟨d', hd', hkeys, hiff⟩ := hentries
  refine ⟨d', ?_, hiff.trans List.forall_mem_map.symm⟩
  rw [ofDict, Document.record, List.map_map, dict?]
  exact (congrArg (Option.map Dict.ofList) hd').trans
    (congrArg some (Dict.Sorted.of_keys hkeys hsorted).ofList_eq)

theorem dict?_ofDict {d : Dict α} (hsorted : d.Sorted) (h : ∀ a ∈ d.values, f (form a) = some a) :
    dict? f (ofDict form d) = some d := by
  obtain ⟨d', h', hiff⟩ := givesBack_dict hsorted fun a ha => givesBack_of_eq (h a ha)
  rw [h', hiff.2 fun _ _ => trivial]

end Collections

end Form

end Lending
