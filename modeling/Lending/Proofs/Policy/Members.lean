import Lending.Policy.RuleDocument
import Lending.Proofs.Checks
import Lending.Proofs.Document
import Lending.Proofs.Form.Members

/-! Members of policy documents, as they are read and as forms write them.

A member that is checked for its type is read wherever it is there, and what it is read as holds no
numbers but the document's own. A member that a form writes is read as what was written, and one
that the form leaves out as none. -/
namespace Lending.Document
variable {d : Document} {name : String}

/-! ### What is read -/

theorem get?_of_present? {e : Document} (h : d.present? name = some e) : d.get? name = some e := by
  rw [present?] at h
  split at h
  · cases h
  · cases h
  · next hget => exact hget.trans h

/-- A reading that finds nothing in a null does not tell it from an absent member. -/
theorem bind_present? {α : Type} {f : Document → Option α} (hnull : f .null = none) :
    (d.present? name).bind f = (d.get? name).bind f := by
  rw [present?]
  split
  · next h => rw [h]
  · next h =>
    rw [h]
    exact hnull.symm
  · next h => rw [h]

/-- A member that is checked for its type is read wherever it is there. -/
theorem optional_ok_iff {α : Type} {f : Document → Option α} {complaint : Complaint}
    {v : Option α} : d.optional f complaint name = .ok v ↔ (d.present? name = none ∧ v = none) ∨
      ∃ e a, d.present? name = some e ∧ f e = some a ∧ v = some a := by
  rw [optional]
  cases hpresent : d.present? name with
  | none => simp [eq_comm]
  | some e =>
    cases hread : f e with
    | none => simp [hread]
    | some a => simp [hread, eq_comm]

theorem optional_ok {α : Type} {f : Document → Option α} {complaint : Complaint} {v : Option α}
    (h : d.optional f complaint name = .ok v) :
    ∀ a ∈ v, ∃ e, d.get? name = some e ∧ f e = some a := by
  rintro a rfl
  rcases optional_ok_iff.1 h with ⟨-, hnone⟩ | ⟨e, b, hpresent, hb, heq⟩
  · cases hnone
  · cases heq
    exact ⟨e, get?_of_present? hpresent, hb⟩

theorem requiredNumber_ok {x : Float} (h : d.requiredNumber name = .ok x) :
    ∃ e, d.present? name = some e ∧ e.number? = some x := by
  obtain ⟨v, hv, h⟩ := bind_ok_iff.1 h
  rcases optional_ok_iff.1 hv with ⟨-, rfl⟩ | ⟨e, a, hpresent, ha, rfl⟩
  · cases h
  · cases h
    exact ⟨e, hpresent, ha⟩

theorem optionalText_of_present? {e : Document} (h : d.present? name = some e) :
    d.optionalText name = e.scalarText? := by
  rw [optionalText, get?_of_present? h, Option.bind_some]

theorem requiredText_ok {text : String} (h : d.requiredText name = .ok text) :
    ∃ e, d.present? name = some e ∧ e.scalarText? = some text := by
  rw [requiredText, optionalText, ← bind_present? rfl] at h
  cases htext : (d.present? name).bind scalarText? with
  | none =>
    rw [htext] at h
    cases h
  | some s =>
    rw [htext] at h
    cases h
    exact Option.bind_eq_some_iff.1 htext

/-- A number that is read is one of the document. -/
theorem mem_numbers_of_optionalNumber {v : Option Float} (h : d.optionalNumber name = .ok v) :
    ∀ x ∈ v, x ∈ d.numbers := by
  intro x hx
  obtain ⟨e, hget, hnumber⟩ := optional_ok h x hx
  exact numbers_subset_of_get? hget (mem_numbers_of_number? hnumber)

theorem numbers_subset_of_mem_items {e : Document} (h : e ∈ (d.optionalItems name).getD []) :
    e.numbers ⊆ d.numbers := by
  cases hitems : d.optionalItems name with
  | none =>
    rw [hitems] at h
    cases h
  | some items =>
    rw [hitems] at h
    obtain ⟨m, hget, hm⟩ := Option.bind_eq_some_iff.1 hitems
    exact List.Subset.trans (numbers_subset_of_items? hm h) (numbers_subset_of_get? hget)

/-- Values that are read are in key order and plain. -/
theorem isPlain_of_optionalValues {params : Dict Value}
    (hfinite : ∀ x ∈ d.numbers, x.isFinite = true) (h : d.optionalValues name = .ok params) :
    params.Sorted ∧ ∀ v ∈ params.values, v.IsPlain := by
  rw [optionalValues] at h
  split at h
  · cases h
    exact ⟨List.Pairwise.nil, List.forall_mem_nil _⟩
  · cases h
    exact ⟨List.Pairwise.nil, List.forall_mem_nil _⟩
  · next members hget =>
    cases h
    have hmembers : ∀ x ∈ memberNumbers members, x.isFinite = true :=
      fun x hx => hfinite x (numbers_subset_of_get? hget hx)
    exact ⟨Dict.Sorted.ofList _,
      fun v hv => membersArePlain_toMembers hmembers v (Dict.mem_values_ofList hv)⟩
  · cases h

/-! ### What was written -/

theorem optionalText_of_get? {v : Option String} (h : d.get? name = v.map .text) :
    d.optionalText name = v := by
  rw [optionalText, h]
  cases v <;> rfl

theorem requiredText_of_get? {s : String} (h : d.get? name = some (.text s)) :
    d.requiredText name = .ok s := by
  have htext : d.optionalText name = some s := optionalText_of_get? (by rw [h, Option.map_some])
  rw [requiredText, htext]

theorem optionalNumber_of_get? {v : Option Float} (h : d.get? name = v.map .real) :
    d.optionalNumber name = .ok v := by
  rw [optionalNumber, optional, present?, h]
  cases v <;> rfl

theorem optionalFlag_of_get? {b : Bool} (h : d.get? name = some (.flag b)) :
    d.optionalFlag name = .ok (some b) := by
  rw [optionalFlag, optional, present?, h]
  rfl

theorem optionalCount_of_get? {n : UInt32} (h : d.get? name = some (Form.ofCount n)) :
    d.optionalCount name = .ok (some n) := by
  have hnatural : natural? (.integer n.toNat) = some n.toNat := by
    show (if (0 : Int) ≤ n.toNat then some (n.toNat : Int).toNat else none) = some n.toNat
    rw [if_pos (Int.natCast_nonneg _), Int.toNat_natCast]
  have hcount : count? (.integer n.toNat) = some n := by
    rw [count?, hnatural, Option.bind_some, if_pos n.toNat_lt_size, UInt32.ofNat_toNat]
  rw [optionalCount, optional, present?, h, Form.ofCount]
  simp [hcount]

theorem optionalItems_of_get? {α : Type} {form : α → Document} {items : List α}
    (h : d.get? name = some (Form.ofList form items)) :
    d.optionalItems name = some (items.map form) := by
  rw [optionalItems, h]
  rfl

/-- Items that are left out when there are none. -/
theorem optionalItems_unlessEmpty {α : Type} {form : α → Document} {items : List α}
    (h : d.get? name = if items ≠ [] then some (Form.ofList form items) else none) :
    (d.optionalItems name).getD [] = items.map form := by
  by_cases hempty : items = []
  · rw [if_neg (not_not_intro hempty)] at h
    rw [optionalItems, h, hempty]
    rfl
  · rw [if_pos hempty] at h
    rw [optionalItems_of_get? h, Option.getD_some]

theorem ofDict_ofValue (params : Dict Value) :
    Form.ofDict ofValue params = .mapping (ofMembers params) := by
  rw [Form.ofDict, record, List.map_map]
  induction params with
  | nil => rfl
  | cons e rest ih =>
    obtain ⟨key, v⟩ := e
    rw [List.map_cons, ofMembers, ← mapping.inj ih]
    rfl

/-- Plain values that are left out when there are none. -/
theorem optionalValues_unlessEmpty {params : Dict Value} (hsorted : params.Sorted)
    (hplain : ∀ v ∈ params.values, v.IsPlain)
    (h : d.get? name = if params ≠ [] then some (Form.ofDict ofValue params) else none) :
    d.optionalValues name = .ok params := by
  by_cases hempty : params = []
  · rw [if_neg (not_not_intro hempty)] at h
    rw [optionalValues, h, hempty]
  · rw [if_pos hempty, ofDict_ofValue] at h
    rw [optionalValues, h]
    show Except.ok (Dict.ofList (toMembers (ofMembers params))) = .ok params
    rw [toMembers_ofMembers (Value.membersArePlain_iff.2 hplain), hsorted.ofList_eq]

theorem optionalWord_of_get? {α : Type} {f : String → Except ReadError α} {word : α → String}
    {v : Option α} (h : d.get? name = v.map fun a => .text (word a))
    (hread : ∀ a, f (word a) = .ok a) : d.optionalWord f name = .ok v := by
  have htext : d.optionalText name = v.map word :=
    optionalText_of_get? (by rw [h, Option.map_map]; rfl)
  rw [optionalWord, htext]
  cases v with
  | none => rfl
  | some a =>
    show (f (word a)).map some = .ok (some a)
    rw [hread a]
    rfl

/-! ### Unknown members -/

theorem memberNames_record (members : List (String × Document)) :
    (record members).memberNames = members.map Prod.fst := by
  show (members.map fun m => (text m.1, m.2)).filterMap (fun m => m.1.text?) = _
  rw [List.filterMap_map, ← List.filterMap_eq_map]
  rfl

/-- Members under known names give no cause for a warning. -/
theorem unknownMembers_of_isRecord {names known : List String} (h : Form.IsRecord names d)
    (hknown : ∀ name ∈ names, name ∈ known) (context : String) :
    d.unknownMembers known context = [] := by
  obtain ⟨members, rfl, hnamed⟩ := h
  rw [unknownMembers, memberNames_record, List.filter_eq_nil_iff.2, List.map_nil]
  intro name hname
  simpa using hknown name (hnamed.subset hname)

end Lending.Document

/-! ### The members of a rule -/

namespace Lending.Rule

/-- What each part of a rule is read from. -/
theorem parts_of_read {d : Document} {r : Rule} (h : (Rule.read d).outcome = .ok r) :
    RuleKind.read d = .ok r.kind ∧ ∃ outcome severity,
      d.optionalWord RuleOutcome.read "outcome" = .ok outcome ∧
        d.optionalWord Severity.read "severity" = .ok severity ∧
        r.severity = severity.getD (severityFor outcome) ∧
        r.outcome = outcome.getD r.severity.outcome := by
  simp only [Rule.read, Noted.outcome_bind, Noted.outcome_liftM] at h
  obtain ⟨id, -, h⟩ := bind_ok_iff.1 h
  obtain ⟨-, -, h⟩ := bind_ok_iff.1 h
  obtain ⟨outcome, houtcome, h⟩ := bind_ok_iff.1 h
  obtain ⟨severity, hseverity, h⟩ := bind_ok_iff.1 h
  obtain ⟨kind, hkind, h⟩ := bind_ok_iff.1 h
  obtain ⟨enabled, -, h⟩ := bind_ok_iff.1 h
  obtain ⟨isCustom, -, h⟩ := bind_ok_iff.1 h
  cases h
  exact ⟨hkind, outcome, severity, houtcome, hseverity, rfl, rfl⟩

end Lending.Rule
