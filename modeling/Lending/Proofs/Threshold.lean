import Lending.Threshold
import Lending.Yaml.Composition

/-! What one literal means in a rule and in a tree condition.

A rule reads its threshold from the document as it is written. A tree condition turns the document
into a value and reads that. Both take a sequence for a list and a mapping with two bounds for a
range, but they ask different things of the bounds: a rule wants numbers, a condition wants what
stands for a finite number. A range whose bounds are quoted is therefore none to a rule, and one
that is open at an end is none to a condition; every other literal means the same to both. -/
namespace Lending

namespace Document

/-- Neither the document nor a key of it is tagged, and no key is there twice. -/
structure IsLiteral (d : Document) : Prop where
  untagged : d.untagged = d
  keys : ∀ members, d.members? = some members → Yaml.hasRepeatedKey members = false ∧
    ∀ m ∈ members, m.1.untagged = m.1

/-- The bounds that a rule finds: two numbers under `min` and `max`. -/
def writtenBounds? (d : Document) : Option (Float × Float) :=
  match (d.get? "min").bind number?, (d.get? "max").bind number? with
  | some min, some max => some (min, max)
  | _, _ => none

/-- The bounds that a condition finds: under both names what stands for a finite number, and that
may be a text. -/
def readBounds? (d : Document) : Option (Float × Float) :=
  match (d.get? "min").bind (·.toValue.number?), (d.get? "max").bind (·.toValue.number?) with
  | some min, some max => some (min, max)
  | _, _ => none

/-- Bounds that only one of the readings finds. -/
inductive HasUnevenBounds (d : Document) : Prop
  /-- Two numbers, not both of them finite. -/
  | infinite {min max : Float} (written : d.writtenBounds? = some (min, max))
      (h : ¬ (min.isFinite = true ∧ max.isFinite = true))
  /-- Two finite numbers, not both of them written as numbers. -/
  | quoted {min max : Float} (read : d.readBounds? = some (min, max))
      (h : d.writtenBounds? = none)

/-! ### Members of documents and of their values -/

theorem untagged_ne_tagged (d : Document) {tag : String} {content : Document} :
    d.untagged ≠ .tagged tag content := by
  fun_induction Document.untagged d with
  | case1 _ _ ih => exact ih
  | case2 d hd => exact hd tag content

theorem toValue_untagged (d : Document) : d.untagged.toValue = d.toValue := by
  fun_induction Document.untagged d with
  | case1 tag content ih => rw [ih, toValue]
  | case2 d _ => rfl

theorem toValues_eq_map (items : List Document) : toValues items = items.map toValue := by
  induction items with
  | nil => rfl
  | cons d rest ih => rw [toValues, ih, List.map_cons]

/-- A number keeps its value, and stands for it if it is finite. -/
theorem number?_toValue {d : Document} {x : Float} (h : d.number? = some x) :
    d.toValue.number? = if x.isFinite then some x else none := by
  rw [← toValue_untagged]
  unfold number? at h
  split at h
  · next hd =>
    cases h
    rw [hd]
    rfl
  · next hd =>
    cases h
    rw [hd]
    rfl
  · cases h

/-- An untagged key is a text only if it is written as one. -/
theorem eq_text_of_text? {key : Document} (hkey : key.untagged = key) {k : String}
    (h : key.text? = some k) : key = .text k := by
  rw [text?, hkey] at h
  split at h
  · cases h
    rfl
  · cases h

theorem mem_keys_toMembers {members : List (Document × Document)} {k : String} :
    k ∈ (toMembers members).map Prod.fst ↔ ∃ m ∈ members, m.1.text? = some k := by
  induction members with
  | nil => simp [toMembers]
  | cons m rest ih =>
    obtain ⟨key, v⟩ := m
    simp only [toMembers, List.mem_cons, exists_eq_or_imp, ← ih]
    cases key.text? with
    | none => simp
    | some name => simp [eq_comm]

theorem nodup_keys_toMembers {members : List (Document × Document)}
    (hdistinct : Yaml.hasRepeatedKey members = false) (hkeys : ∀ m ∈ members, m.1.untagged = m.1) :
    ((toMembers members).map Prod.fst).Nodup := by
  induction members with
  | nil => exact List.nodup_nil
  | cons m rest ih =>
    obtain ⟨key, v⟩ := m
    rw [Yaml.hasRepeatedKey, Bool.or_eq_false_iff, List.any_eq_false] at hdistinct
    obtain ⟨hkey : key.untagged = key, hrest⟩ := List.forall_mem_cons.1 hkeys
    have hnodup := ih hdistinct.2 hrest
    rw [toMembers]
    cases hname : key.text? with
    | none => exact hnodup
    | some name =>
      refine List.nodup_cons.2 ⟨fun hmem => ?_, hnodup⟩
      obtain ⟨m, hm, hm'⟩ := mem_keys_toMembers.1 hmem
      have hsame := hdistinct.1 m hm
      rw [eq_text_of_text? hkey hname, eq_text_of_text? (hrest m hm) hm'] at hsame
      simp [same] at hsame

theorem get?_toMembers {members : List (Document × Document)}
    (hkeys : ∀ m ∈ members, m.1.untagged = m.1) (name : String) :
    Dict.get? (toMembers members) name = (memberOf? members name).map toValue := by
  fun_induction memberOf? members name with
  | case1 name => rfl
  | case2 v rest name =>
    rw [toMembers]
    exact if_pos rfl
  | case3 k v rest name hk ih =>
    rw [toMembers]
    exact (if_neg hk).trans (ih (List.forall_mem_cons.1 hkeys).2)
  | case4 m rest name hm ih =>
    obtain ⟨key, v⟩ := m
    obtain ⟨hkey : key.untagged = key, hrest⟩ := List.forall_mem_cons.1 hkeys
    have hname : key.text? = none := by
      rw [Option.eq_none_iff_forall_ne_some]
      intro k hk
      exact hm k v (by rw [eq_text_of_text? hkey hk])
    rw [toMembers, hname]
    exact ih hrest

theorem isLiteral_record {members : List (String × Document)}
    (h : (members.map Prod.fst).Nodup) : IsLiteral (record members) := by
  refine ⟨rfl, ?_⟩
  rintro _ ⟨⟩
  constructor
  · induction members with
    | nil => rfl
    | cons m rest ih =>
      obtain ⟨hm, hrest⟩ := List.nodup_cons.1 h
      rw [List.map_cons, Yaml.hasRepeatedKey, ih hrest, Bool.or_false, List.any_eq_false]
      intro m' hm' hsame
      obtain ⟨n, hn, rfl⟩ := List.mem_map.1 hm'
      rw [same, beq_iff_eq] at hsame
      exact hm (hsame ▸ List.mem_map_of_mem hn)
  · intro m hm
    obtain ⟨n, _, rfl⟩ := List.mem_map.1 hm
    rfl

/-- **A literal mapping and its value have the same members.** -/
theorem IsLiteral.get?_value {members : List (Document × Document)}
    (h : IsLiteral (.mapping members)) (name : String) :
    Dict.get? (Dict.ofList (toMembers members)) name =
      (get? (.mapping members) name).map toValue := by
  obtain ⟨hdistinct, hkeys⟩ := h.keys members rfl
  rw [Dict.get?_ofList (nodup_keys_toMembers hdistinct hkeys), get?_toMembers hkeys]
  rfl

/-- Of two written bounds a condition finds the same if they are finite, and none otherwise. -/
theorem readBounds?_of_written {d : Document} {min max : Float}
    (h : d.writtenBounds? = some (min, max)) : d.readBounds? =
      if min.isFinite = true ∧ max.isFinite = true then some (min, max) else none := by
  unfold writtenBounds? at h
  split at h
  · next hmin hmax =>
    cases h
    obtain ⟨low, hlow, hx⟩ := Option.bind_eq_some_iff.1 hmin
    obtain ⟨high, hhigh, hy⟩ := Option.bind_eq_some_iff.1 hmax
    rw [readBounds?, hlow, hhigh, Option.bind_some, Option.bind_some, number?_toValue hx,
      number?_toValue hy]
    cases min.isFinite <;> cases max.isFinite <;> rfl
  · cases h

theorem eq_of_not_uneven {d : Document} (h : ¬ d.HasUnevenBounds) :
    d.writtenBounds? = d.readBounds? := by
  cases hwritten : d.writtenBounds? with
  | none =>
    refine Eq.symm (Option.eq_none_iff_forall_ne_some.2 fun b hread => h ?_)
    exact .quoted hread hwritten
  | some b =>
    have hfinite : b.1.isFinite = true ∧ b.2.isFinite = true :=
      Classical.byContradiction fun hnot => h (.infinite hwritten hnot)
    rw [readBounds?_of_written hwritten, if_pos hfinite]

end Document

/-! ### The two readings -/

namespace Threshold
open Document

/-- A range where bounds are found, the mapping itself where there are none. -/
def ofBounds? (bounds : Option (Float × Float)) (whole : Value) : Threshold :=
  match bounds with
  | some (min, max) => .range min max
  | none => .scalar whole

theorem ofDocument_mapping (members : List (Document × Document)) :
    ofDocument (.mapping members) =
      ofBounds? (writtenBounds? (.mapping members)) (toValue (.mapping members)) := by
  unfold ofDocument writtenBounds?
  cases (get? (.mapping members) "min").bind Document.number? with
  | none => rfl
  | some min => cases (get? (.mapping members) "max").bind Document.number? <;> rfl

theorem ofValue_mapping {members : List (Document × Document)}
    (h : IsLiteral (.mapping members)) : ofValue (toValue (.mapping members)) =
      ofBounds? (readBounds? (.mapping members)) (toValue (.mapping members)) := by
  rw [toValue, ofValue.eq_def]
  simp only [h.get?_value, Option.bind_map, Function.comp_def, readBounds?]
  cases (get? (.mapping members) "min").bind fun m => m.toValue.number? with
  | none => rfl
  | some min => cases (get? (.mapping members) "max").bind fun m => m.toValue.number? <;> rfl

/-- **A literal whose bounds are not uneven has one reading.** -/
theorem ofDocument_eq {d : Document} (h : d.IsLiteral) (heven : ¬ d.HasUnevenBounds) :
    ofDocument d = ofValue d.toValue := by
  cases d with
  | null | flag | integer | real | text => rfl
  | tagged tag content => exact absurd h.untagged (untagged_ne_tagged _)
  | sequence items =>
    rw [toValue, toValues_eq_map]
    rfl
  | mapping members =>
    rw [ofDocument_mapping, ofValue_mapping h, eq_of_not_uneven heven]

/-- Where bounds are uneven one reading is a range and the other is not. -/
theorem range_of_uneven {d : Document} (h : d.IsLiteral) (hb : d.HasUnevenBounds) :
    ∃ min max v, (ofDocument d = .range min max ∧ ofValue d.toValue = .scalar v) ∨
      (ofDocument d = .scalar v ∧ ofValue d.toValue = .range min max) := by
  cases d with
  | null | flag | integer | real | text | sequence =>
    rcases hb with ⟨hwritten, _⟩ | ⟨hread, _⟩
    · cases hwritten
    · cases hread
  | tagged tag content => exact absurd h.untagged (untagged_ne_tagged _)
  | mapping members =>
    rw [ofDocument_mapping, ofValue_mapping h]
    rcases hb with ⟨hwritten, hinfinite⟩ | ⟨hread, hwritten⟩
    · rw [readBounds?_of_written hwritten, hwritten, if_neg hinfinite]
      exact ⟨_, _, _, .inl ⟨rfl, rfl⟩⟩
    · rw [hread, hwritten]
      exact ⟨_, _, _, .inr ⟨rfl, rfl⟩⟩

/-- Nothing equals a range, and anything can be held against a scalar. -/
theorem compare_range_ne_scalar (min max : Float) (v : Value) :
    (Value.flag true).compare .eq (.range min max) ≠ (Value.flag true).compare .eq (.scalar v) := by
  intro h
  cases h

/-- **A literal means the same in a rule and in a tree condition** exactly if its bounds, where it
has any, are not uneven. -/
theorem literal_meaning_iff {d : Document} (h : d.IsLiteral) :
    (∀ (actual : Value) (op : Operator),
        actual.compare op (.ofDocument d) = actual.compareValue op d.toValue) ↔
      ¬ d.HasUnevenBounds := by
  constructor
  · intro hsame hb
    -- `eq` tells the readings apart: it refuses a range and accepts every scalar
    have heq : (Value.flag true).compare .eq (ofDocument d) =
        (Value.flag true).compare .eq (ofValue d.toValue) := hsame (.flag true) .eq
    obtain ⟨min, max, v, ⟨hrule, hcondition⟩ | ⟨hrule, hcondition⟩⟩ := range_of_uneven h hb
    · rw [hrule, hcondition] at heq
      exact compare_range_ne_scalar min max v heq
    · rw [hrule, hcondition] at heq
      exact compare_range_ne_scalar min max v heq.symm
  · intro heven actual op
    rw [Value.compareValue, ofDocument_eq h heven]

/-- A loan term from half a year to five years. -/
def termRange : Document :=
  .record [("min", .integer 6), ("max", .integer 60)]

theorem literal_meaning_termRange : termRange.IsLiteral ∧ ¬ termRange.HasUnevenBounds ∧
    ∀ (actual : Value) (op : Operator),
      actual.compare op (.ofDocument termRange) = actual.compareValue op termRange.toValue := by
  have hliteral : termRange.IsLiteral := isLiteral_record (by decide)
  have hwritten : termRange.writtenBounds? = some (6, 60) := by rfl
  have heven : ¬ termRange.HasUnevenBounds := by
    rintro (⟨h, hinfinite⟩ | ⟨_, h⟩)
    · cases hwritten.symm.trans h
      exact hinfinite (by decide +kernel)
    · cases hwritten.symm.trans h
  exact ⟨hliteral, heven, (literal_meaning_iff hliteral).2 heven⟩

/-- The same range with its bounds in quotes. -/
def quotedTermRange : Document :=
  .record [("min", .text "6"), ("max", .text "60")]

/-- A rule finds no bounds in it, and a condition does. -/
theorem quoted_bounds_part : quotedTermRange.IsLiteral ∧
    (Value.number 36).compare .between (.ofDocument quotedTermRange) = .error ⟨.between, .noBounds⟩ ∧
    (Value.number 36).compareValue .between quotedTermRange.toValue = .ok true :=
  ⟨isLiteral_record (by decide), rfl, by rfl⟩

/-- A range that is open at its end: the condition finds no bounds in it. -/
def openTermRange : Document :=
  .record [("min", .integer 6), ("max", .real (1 / 0))]

example : ((Value.number 36).compare .between (.ofDocument openTermRange)).toOption = some true ∧
    ((Value.number 36).compareValue .between openTermRange.toValue).toOption = none := by
  decide +kernel

end Threshold

end Lending
