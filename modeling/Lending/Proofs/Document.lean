import Lending.Document

/-! Documents, values and dictionaries.

A dictionary whose keys are in order is what its entries make. A value is plain if its numbers are
finite and its objects' members are in key order; a plain value is the value of the document that
shows it, and the value of a document with finite numbers is plain. -/
namespace Lending

/-! ### Entries in order -/

namespace Dict
variable {α β : Type}

@[simp] theorem get?_cons (k : String) (v : α) (rest : Dict α) (key : String) :
    get? ((k, v) :: rest) key = if k = key then some v else get? rest key := rfl

@[simp] theorem get?_append (d e : Dict α) (key : String) :
    get? (d ++ e) key = (get? d key).or (get? e key) := by
  induction d with
  | nil => rfl
  | cons m rest ih =>
    obtain ⟨k, v⟩ := m
    rw [List.cons_append, get?_cons, get?_cons, ih]
    split <;> rfl

theorem insert_of_last {d : Dict α} {key : String} (h : ∀ e ∈ d, e.1 < key) (v : α) :
    d.insert key v = d ++ [(key, v)] := by
  induction d with
  | nil => rfl
  | cons e rest ih =>
    obtain ⟨k, w⟩ := e
    obtain ⟨hk, hrest⟩ := List.forall_mem_cons.1 h
    have hk : k < key := hk
    rw [insert, if_neg (String.lt_asymm hk), if_neg (String.ne_of_lt hk).symm, ih hrest,
      List.cons_append]

/-- Entries that are in order already stay as they are. -/
theorem Sorted.ofList_eq {d : Dict α} (h : d.Sorted) : Dict.ofList d = d := by
  have aux : ∀ (l e : Dict α), Sorted (e ++ l) →
      l.foldl (fun d m => d.insert m.1 m.2) e = e ++ l := by
    intro l
    induction l with
    | nil => exact fun e _ => (List.append_nil e).symm
    | cons m rest ih =>
      intro e he
      have hlast : ∀ x ∈ e, x.1 < m.1 := fun x hx =>
        (List.pairwise_append.1 he).2.2 x hx m (List.mem_cons_self ..)
      rw [List.foldl_cons, insert_of_last hlast, ih _ (by simpa using he), List.append_assoc]
      rfl
  exact aux d [] h

theorem mem_values_insert {d : Dict α} {key : String} {v w : α} (h : w ∈ values (d.insert key v)) :
    w = v ∨ w ∈ d.values := by
  induction d with
  | nil => exact .inl (List.mem_singleton.1 h)
  | cons e rest ih =>
    obtain ⟨k, u⟩ := e
    rw [insert] at h
    split at h
    · exact List.mem_cons.1 h
    · split at h
      · exact (List.mem_cons.1 h).imp_right (List.mem_cons_of_mem u)
      · rcases List.mem_cons.1 h with rfl | h
        · exact .inr (List.mem_cons_self ..)
        · exact (ih h).imp_right (List.mem_cons_of_mem u)

/-- Every value of a dictionary is one of the entries it was made of. -/
theorem mem_values_ofList {entries : List (String × α)} {v : α} (h : v ∈ values (ofList entries)) :
    v ∈ values entries := by
  have aux : ∀ (l : List (String × α)) (d : Dict α),
      v ∈ values (l.foldl (fun d e => d.insert e.1 e.2) d) → v ∈ values d ∨ v ∈ values l := by
    intro l
    induction l with
    | nil => exact fun d hd => .inl hd
    | cons e rest ih =>
      intro d hd
      rcases ih _ hd with hinsert | hrest
      · rcases mem_values_insert hinsert with rfl | hd
        · exact .inr (List.mem_cons_self ..)
        · exact .inl hd
      · exact .inr (List.mem_cons_of_mem _ hrest)
  exact (aux entries [] h).resolve_left List.not_mem_nil

/-- Whether entries are in order is a matter of their keys. -/
theorem Sorted.of_keys {d : Dict α} {e : Dict β} (hkeys : d.map Prod.fst = e.map Prod.fst)
    (h : e.Sorted) : d.Sorted := by
  rw [Sorted, ← List.pairwise_map (f := Prod.fst) (R := (· < ·))] at h ⊢
  rwa [hkeys]

end Dict

/-! ### Members by name -/

namespace Document

theorem memberOf?_record (members : List (String × Document)) (name : String) :
    memberOf? (members.map fun m => (.text m.1, m.2)) name = Dict.get? members name := by
  induction members with
  | nil => rfl
  | cons m rest ih => rw [List.map_cons, memberOf?, ih]; rfl

@[simp] theorem get?_record (members : List (String × Document)) (name : String) :
    (record members).get? name = Dict.get? members name :=
  memberOf?_record members name

end Document

/-! ### Values -/

namespace Value

mutual

/-- Finite numbers, and objects with their members in key order. -/
def IsPlain : Value → Prop
  | .null | .flag _ | .text _ => True
  | .number x => x.isFinite = true
  | .array items => ArePlain items
  | .object members => Dict.Sorted members ∧ MembersArePlain members

def ArePlain : List Value → Prop
  | [] => True
  | v :: rest => IsPlain v ∧ ArePlain rest

def MembersArePlain : List (String × Value) → Prop
  | [] => True
  | (_, v) :: rest => IsPlain v ∧ MembersArePlain rest

end

theorem membersArePlain_iff {members : List (String × Value)} :
    MembersArePlain members ↔ ∀ v ∈ Dict.values members, v.IsPlain := by
  induction members with
  | nil => simp [MembersArePlain, Dict.values]
  | cons m rest ih =>
    rw [MembersArePlain, ih, Dict.values, Dict.values, List.map_cons, List.forall_mem_cons]

end Value

namespace Document
open Value

mutual

/-- **A plain value is the value of the document that shows it.** -/
theorem toValue_ofValue {v : Value} (h : v.IsPlain) : (ofValue v).toValue = v := by
  cases v with
  | null | flag | text | number => rfl
  | array items => rw [ofValue, toValue, toValues_ofValues h]
  | object members =>
    rw [ofValue, toValue, toMembers_ofMembers h.2]
    exact congrArg Value.object h.1.ofList_eq

theorem toValues_ofValues {items : List Value} (h : ArePlain items) :
    toValues (ofValues items) = items := by
  cases items with
  | nil => rfl
  | cons v rest => rw [ofValues, toValues, toValue_ofValue h.1, toValues_ofValues h.2]

theorem toMembers_ofMembers {members : List (String × Value)} (h : MembersArePlain members) :
    toMembers (ofMembers members) = members := by
  cases members with
  | nil => rfl
  | cons m rest =>
    obtain ⟨key, v⟩ := m
    rw [ofMembers, toMembers, toValue_ofValue h.1, toMembers_ofMembers h.2]
    rfl

end

theorem ofValue_eq_null {v : Value} : ofValue v = .null ↔ v = .null := by
  cases v <;> simp [ofValue]

theorem memberOf?_ofMembers (members : List (String × Value)) (name : String) :
    memberOf? (ofMembers members) name = (Dict.get? members name).map ofValue := by
  induction members with
  | nil => rfl
  | cons m rest ih =>
    obtain ⟨key, v⟩ := m
    rw [ofMembers, memberOf?, ih, Dict.get?_cons]
    split <;> rfl

theorem number?_ofValue {v : Value} {x : Float} : (ofValue v).number? = some x ↔ v = .number x := by
  cases v with
  | number y =>
    constructor
    · intro h
      cases h
      rfl
    · intro h
      cases h
      rfl
  | null | flag | text | array | object =>
    constructor
    · intro h
      cases h
    · intro h
      cases h

/-! ### Numbers -/

mutual

/-- The numbers of a document, keys apart; an integer is the double it is read as. -/
def numbers : Document → List Float
  | .null | .flag _ | .text _ => []
  | .integer n => [Number.ofInt n]
  | .real x => [x]
  | .sequence items => itemNumbers items
  | .mapping members => memberNumbers members
  | .tagged _ content => content.numbers

def itemNumbers : List Document → List Float
  | [] => []
  | d :: rest => d.numbers ++ itemNumbers rest

def memberNumbers : List (Document × Document) → List Float
  | [] => []
  | (_, d) :: rest => d.numbers ++ memberNumbers rest

end

theorem numbers_untagged (d : Document) : d.untagged.numbers = d.numbers := by
  cases d with
  | tagged tag content => rw [untagged, numbers, numbers_untagged content]
  | null | flag | integer | real | text | sequence | mapping => rfl

theorem numbers_subset_items {items : List Document} {d : Document} (h : d ∈ items) :
    d.numbers ⊆ itemNumbers items := by
  induction items with
  | nil => cases h
  | cons e rest ih =>
    rcases List.mem_cons.1 h with rfl | h
    · exact List.subset_append_left _ _
    · exact List.subset_append_of_subset_right _ (ih h)

/-- The first member counts, or it is passed over. -/
theorem memberOf?_cons (key d : Document) (rest : List (Document × Document)) (name : String) :
    memberOf? ((key, d) :: rest) name = some d ∨
      memberOf? ((key, d) :: rest) name = memberOf? rest name := by
  cases key with
  | text k =>
    rw [memberOf?]
    split
    · exact .inl rfl
    · exact .inr rfl
  | null | flag | integer | real | sequence | mapping | tagged => exact .inr rfl

theorem numbers_subset_members {members : List (Document × Document)} {name : String}
    {d : Document} (h : memberOf? members name = some d) : d.numbers ⊆ memberNumbers members := by
  induction members with
  | nil => cases h
  | cons m rest ih =>
    obtain ⟨key, e⟩ := m
    rcases memberOf?_cons key e rest name with hfirst | hrest
    · cases hfirst.symm.trans h
      exact List.subset_append_left _ _
    · exact List.subset_append_of_subset_right _ (ih (hrest.symm.trans h))

/-- A member's numbers are numbers of the document. -/
theorem numbers_subset_of_get? {d e : Document} {name : String} (h : d.get? name = some e) :
    e.numbers ⊆ d.numbers := by
  obtain ⟨members, hmembers, he⟩ := Option.bind_eq_some_iff.1 h
  rw [members?] at hmembers
  split at hmembers
  · next hd =>
    cases hmembers
    rw [← numbers_untagged d, hd]
    exact numbers_subset_members he
  · cases hmembers

theorem numbers_subset_of_items? {d e : Document} {items : List Document}
    (h : d.items? = some items) (he : e ∈ items) : e.numbers ⊆ d.numbers := by
  rw [items?] at h
  split at h
  · next hd =>
    cases h
    rw [← numbers_untagged d, hd]
    exact numbers_subset_items he
  · cases h

theorem mem_numbers_of_number? {d : Document} {x : Float} (h : d.number? = some x) :
    x ∈ d.numbers := by
  rw [number?] at h
  rw [← numbers_untagged d]
  split at h
  · next hd =>
    cases h
    rw [hd]
    exact List.mem_singleton_self _
  · next hd =>
    cases h
    rw [hd]
    exact List.mem_singleton_self _
  · cases h

mutual

/-- **The value of a document with finite numbers is plain.** -/
theorem isPlain_toValue {d : Document} (h : ∀ x ∈ d.numbers, x.isFinite = true) :
    d.toValue.IsPlain := by
  cases d with
  | null | flag | text => trivial
  | integer n => exact h _ (List.mem_singleton_self _)
  | real x => exact h _ (List.mem_singleton_self _)
  | sequence items => exact arePlain_toValues h
  | mapping members =>
    refine ⟨Dict.Sorted.ofList _, membersArePlain_iff.2 fun v hv => ?_⟩
    exact membersArePlain_toMembers h v (Dict.mem_values_ofList hv)
  | tagged tag content =>
    rw [toValue]
    exact isPlain_toValue h

theorem arePlain_toValues {items : List Document} (h : ∀ x ∈ itemNumbers items, x.isFinite = true) :
    ArePlain (toValues items) := by
  cases items with
  | nil => trivial
  | cons d rest =>
    obtain ⟨hd, hrest⟩ := List.forall_mem_append.1 h
    exact ⟨isPlain_toValue hd, arePlain_toValues hrest⟩

theorem membersArePlain_toMembers {members : List (Document × Document)}
    (h : ∀ x ∈ memberNumbers members, x.isFinite = true) :
    ∀ v ∈ Dict.values (toMembers members), v.IsPlain := by
  cases members with
  | nil => exact List.forall_mem_nil _
  | cons m rest =>
    obtain ⟨key, d⟩ := m
    obtain ⟨hd, hrest⟩ := List.forall_mem_append.1 h
    have hmembers := membersArePlain_toMembers hrest
    rw [toMembers]
    cases key.text? with
    | none => exact hmembers
    | some k => exact List.forall_mem_cons.2 ⟨isPlain_toValue hd, hmembers⟩

end

end Document

end Lending
