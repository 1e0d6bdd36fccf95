import Lending.Applicant
import Lending.Context
import Mathlib.Data.List.Nodup

/-! Overriding the attributes of a record.

Overrides are written one after the other. What comes of them can be said at once: an attribute
holds what the last override that names it says, outer blanks of the names apart, and what it held
before if there is none (`revised`). All are written unless one is refused, and whether one is
refused is a matter of its name and its value, not of the record. -/
namespace Lending

/-! ### Attributes by name -/

/-- Every attribute of a kind of record is listed, under a name of its own. -/
class NamedApart (S C : Type) [StoredAttributes S] [ComputedAttributes S C] : Prop where
  listed : ∀ x : Attribute S C, x ∈ (Attribute.all : List (Attribute S C))
  names_nodup : ((Attribute.all : List (Attribute S C)).map Attribute.name).Nodup

instance : NamedApart ApplicantAttribute ComputedField where
  listed x := by
    cases x with
    | stored a => cases a <;> decide
    | computed c => cases c <;> decide
  names_nodup := by decide +kernel

instance : NamedApart ContextAttribute Empty where
  listed x := by
    cases x with
    | stored a => cases a <;> decide
    | computed c => exact nomatch c
  names_nodup := by decide +kernel

variable {S C : Type} [StoredAttributes S] [ComputedAttributes S C]

theorem Attribute.name_inj [NamedApart S C] {x y : Attribute S C} (h : x.name = y.name) : x = y :=
  List.inj_on_of_nodup_map NamedApart.names_nodup (NamedApart.listed x) (NamedApart.listed y) h

/-- The only stored attribute of a name. -/
theorem Attribute.stored_name_iff [NamedApart S C] {key : String} {a : S}
    (h : (Attribute.stored a : Attribute S C).name = Text.trim key) (b : S) :
    StoredAttributes.name b = Text.trim key ↔ b = a := by
  constructor
  · intro hb
    exact Attribute.stored.inj (Attribute.name_inj (x := (.stored b : Attribute S C))
      (y := .stored a) (hb.trans h.symm))
  · rintro rfl
    exact h

theorem Attribute.ofName?_eq_some_iff [NamedApart S C] {key : String} {x : Attribute S C} :
    Attribute.ofName? key = some x ↔ x.name = Text.trim key := by
  have hnamed {y : Attribute S C} (h : Attribute.ofName? key = some y) :
      y.name = Text.trim key := by
    have hy := List.find?_some h
    exact beq_iff_eq.1 hy
  constructor
  · exact hnamed
  · intro h
    cases hfind : (Attribute.ofName? key : Option (Attribute S C)) with
    | none => exact absurd (beq_iff_eq.2 h) (List.find?_eq_none.1 hfind x (NamedApart.listed x))
    | some y => rw [Attribute.name_inj ((hnamed hfind).trans h.symm)]

namespace Kind

/-- The values that can be written to an attribute of this kind; null clears it. -/
def Takes (k : Kind) (v : Value) : Prop :=
  v = .null ∨ (k.ofValue? v).isSome

/-- What an attribute of this kind holds after a value that it takes was written. -/
def written (k : Kind) : Value → Option k.Carrier
  | .null => none
  | v => k.ofValue? v

/-- What is read back after that. -/
def shown (k : Kind) (v : Value) : Value :=
  match k.written v with
  | some x => k.toValue x
  | none => .null

theorem written_of_ne_null (k : Kind) {v : Value} (h : v ≠ .null) :
    k.written v = k.ofValue? v := by
  cases v with
  | null => exact absurd rfl h
  | _ => rfl

end Kind

namespace Record

variable (S) in
/-- Records of this kind have an attribute of the name. -/
def Knows (key : String) : Prop :=
  ∃ x : Attribute S C, x.name = Text.trim key

instance [NamedApart S C] (key : String) : Decidable (Knows S key) :=
  decidable_of_iff (∃ x ∈ (Attribute.all : List (Attribute S C)), x.name = Text.trim key)
    ⟨fun ⟨x, _, hx⟩ => ⟨x, hx⟩, fun ⟨x, hx⟩ => ⟨x, NamedApart.listed x, hx⟩⟩

variable (S) in
/-- An override that records of this kind cannot take: it names a computed attribute, or a stored
one of a kind that its value does not fit. -/
def Refuses (e : String × Value) : Prop :=
  (∃ c : C, ComputedAttributes.name S c = Text.trim e.1) ∨
    ∃ a : S, StoredAttributes.name a = Text.trim e.1 ∧ ¬ (StoredAttributes.kind a).Takes e.2

/-- What the last of the overrides of a name says. -/
def lastOverride? (name : String) (overrides : Dict Value) : Option Value :=
  (overrides.reverse.find? fun e => name == Text.trim e.1).map Prod.snd

/-- The record with all overrides written. -/
def revised (r : Record S) (overrides : Dict Value) : Record S :=
  ⟨fun a =>
    match lastOverride? (StoredAttributes.name a) overrides with
    | some v => (StoredAttributes.kind a).written v
    | none => r.get a⟩

/-! ### One override -/

theorem lastOverride?_cons (name : String) (e : String × Value) (rest : Dict Value) :
    lastOverride? name (e :: rest) =
      (lastOverride? name rest).or (if name = Text.trim e.1 then some e.2 else none) := by
  unfold lastOverride?
  rw [List.reverse_cons, List.find?_append, Option.map_or]
  by_cases h : name = Text.trim e.1
  · simp [h]
  · simp [h]

theorem lastOverride?_of_mem {overrides : Dict Value} {key : String} (h : key ∈ overrides.keys) :
    ∃ v, lastOverride? (Text.trim key) overrides = some v := by
  obtain ⟨e, he, rfl⟩ := List.mem_map.1 h
  rw [← Option.isSome_iff_exists, lastOverride?, Option.isSome_map, List.find?_isSome]
  exact ⟨e, List.mem_reverse.2 he, beq_self_eq_true _⟩

theorem set_of_ne_null (r : Record S) (a : S) {v : Value} (h : v ≠ .null) :
    r.set (.stored a : Attribute S C) v =
      match (StoredAttributes.kind a).ofValue? v with
      | some x => .ok (r.put a (some x))
      | none => .error (.wrongKind (StoredAttributes.name a) (StoredAttributes.kind a)
          v.kindName) := by
  cases v with
  | null => exact absurd rfl h
  | _ => rfl

/-- What is read back of an attribute that was written. -/
theorem value_put_written (r : Record S) (a : S) (v : Value) :
    (r.put a ((StoredAttributes.kind a).written v)).value (.stored a : Attribute S C) =
      (StoredAttributes.kind a).shown v := by
  simp only [value, get_put_self, Kind.shown]
  cases (StoredAttributes.kind a).written v <;> rfl

/-- A stored attribute is written, or it does not take the value. -/
theorem set_stored_cases (r : Record S) (a : S) (v : Value) :
    ((StoredAttributes.kind a).Takes v ∧
        r.set (.stored a : Attribute S C) v = .ok (r.put a ((StoredAttributes.kind a).written v))) ∨
      (¬ (StoredAttributes.kind a).Takes v ∧
        ∃ fault, r.set (.stored a : Attribute S C) v = .error fault) := by
  by_cases hnull : v = .null
  · subst hnull
    exact .inl ⟨.inl rfl, rfl⟩
  · rw [set_of_ne_null r a hnull, Kind.written_of_ne_null _ hnull]
    cases htaken : (StoredAttributes.kind a).ofValue? v with
    | some x => exact .inl ⟨.inr (htaken ▸ rfl), rfl⟩
    | none =>
      refine .inr ⟨fun htakes => ?_, _, rfl⟩
      rcases htakes with hv | hv
      · exact hnull hv
      · rw [htaken] at hv
        cases hv

section
variable [NamedApart S C]

/-- An override does nothing to a record that does not know its name, it is refused, or it writes
a stored attribute. -/
theorem override_cases (r : Record S) (e : String × Value) :
    (¬ Knows S e.1 ∧ ¬ Refuses S e ∧ r.override e.1 e.2 = .ok none) ∨
      (Refuses S e ∧ ∃ fault, r.override e.1 e.2 = .error fault) ∨
      ∃ a : S, (∀ b, StoredAttributes.name b = Text.trim e.1 ↔ b = a) ∧ ¬ Refuses S e ∧
        r.override e.1 e.2 = .ok (some (r.put a ((StoredAttributes.kind a).written e.2))) := by
  obtain ⟨key, v⟩ := e
  unfold Record.override
  cases hfind : (Attribute.ofName? key : Option (Attribute S C)) with
  | none =>
    have hunknown (x : Attribute S C) : x.name ≠ Text.trim key := by
      intro hx
      cases hfind.symm.trans (Attribute.ofName?_eq_some_iff.2 hx)
    refine .inl ⟨fun ⟨x, hx⟩ => hunknown x hx, ?_, rfl⟩
    rintro (⟨c, hc⟩ | ⟨a, ha, _⟩)
    · exact hunknown (.computed c) hc
    · exact hunknown (.stored a) ha
  | some x =>
    have hname := Attribute.ofName?_eq_some_iff.1 hfind
    cases x with
    | computed c => exact .inr (.inl ⟨.inl ⟨c, hname⟩, _, rfl⟩)
    | stored a =>
      rcases r.set_stored_cases (C := C) a v with ⟨htakes, hset⟩ | ⟨hrefused, fault, hset⟩
      · have honly := Attribute.stored_name_iff hname
        refine .inr (.inr ⟨a, honly, ?_, congrArg (Except.map some) hset⟩)
        rintro (⟨c, hc⟩ | ⟨b, hb, hrefused⟩)
        · cases Attribute.name_inj (x := .computed c) (y := .stored a) (hc.trans hname.symm)
        · cases (honly b).1 hb
          exact hrefused htakes
      · exact .inr (.inl ⟨.inr ⟨a, hname, hrefused⟩, fault, congrArg (Except.map some) hset⟩)

omit [NamedApart S C] in
theorem revised_cons_of_unknown (r : Record S) {e : String × Value} (h : ¬ Knows S e.1)
    (rest : Dict Value) : r.revised (e :: rest) = r.revised rest := by
  ext a
  have ha : StoredAttributes.name a ≠ Text.trim e.1 := fun ha => h ⟨.stored a, ha⟩
  simp only [revised, lastOverride?_cons, if_neg ha, Option.or_none]

/-- An override that a later one overrules leaves no trace. -/
theorem revised_cons (r : Record S) {e : String × Value} {a : S}
    (h : ∀ b, StoredAttributes.name b = Text.trim e.1 ↔ b = a) (rest : Dict Value) :
    r.revised (e :: rest) = (r.put a ((StoredAttributes.kind a).written e.2)).revised rest := by
  ext b
  simp only [revised, lastOverride?_cons, h]
  -- Where a later override names the attribute, both sides are what that one says.
  cases lastOverride? (StoredAttributes.name b) rest with
  | some v => rfl
  | none =>
    by_cases hba : b = a
    · subst hba
      simp only [if_true, Option.none_or, get_put_self]
    · simp only [if_neg hba, Option.none_or, get_put_of_ne r hba]

/-! ### Overrides one after the other -/

/-- Without an override that is refused. -/
theorem withOverrides_ok (r : Record S) {overrides : Dict Value}
    (h : ∀ e ∈ overrides, ¬ Refuses S e) :
    r.withOverrides overrides =
      .ok (r.revised overrides, overrides.keys.filter fun key => ¬ Knows S key) := by
  -- The record that is written into changes with every override.
  induction overrides generalizing r with
  | nil => rfl
  | cons e rest ih =>
    obtain ⟨he, hrest⟩ := List.forall_mem_cons.1 h
    rw [withOverrides, Dict.keys, List.map_cons]
    rcases r.override_cases e with ⟨hunknown, _, hset⟩ | ⟨hrefused, _⟩ | ⟨a, ha, _, hset⟩
    · rw [hset, r.revised_cons_of_unknown hunknown,
        List.filter_cons_of_pos (by simpa using hunknown)]
      show (r.withOverrides rest >>= _) = _
      rw [ih r hrest]
      rfl
    · exact absurd hrefused he
    · have hknown : Knows S e.1 := ⟨.stored a, (ha a).2 rfl⟩
      rw [hset, r.revised_cons ha, List.filter_cons_of_neg (by simpa using hknown)]
      exact ih _ hrest

/-- One override that is refused is enough. -/
theorem withOverrides_error (r : Record S) {overrides : Dict Value}
    (h : ∃ e ∈ overrides, Refuses S e) : ∃ fault, r.withOverrides overrides = .error fault := by
  induction overrides generalizing r with
  | nil =>
    obtain ⟨_, hmem, _⟩ := h
    cases hmem
  | cons e rest ih =>
    have hlater (hrefuses : ¬ Refuses S e) : ∃ e' ∈ rest, Refuses S e' := by
      obtain ⟨e', hmem, he'⟩ := h
      rcases List.mem_cons.1 hmem with rfl | hmem
      · exact absurd he' hrefuses
      · exact ⟨e', hmem, he'⟩
    rw [withOverrides]
    rcases r.override_cases e with ⟨_, haccepts, hset⟩ | ⟨_, fault, hset⟩ | ⟨a, _, haccepts, hset⟩
    · obtain ⟨fault, hfault⟩ := ih r (hlater haccepts)
      refine ⟨fault, ?_⟩
      rw [hset]
      show (r.withOverrides rest >>= _) = _
      rw [hfault]
      rfl
    · exact ⟨fault, by rw [hset]; rfl⟩
    · obtain ⟨fault, hfault⟩ := ih _ (hlater haccepts)
      exact ⟨fault, by rw [hset]; exact hfault⟩

end

/-! ### Attributes that two kinds of records share -/

theorem value_revised (r : Record S) {overrides : Dict Value} {a : S} {name : String} {v : Value}
    (ha : StoredAttributes.name a = name) (h : lastOverride? name overrides = some v) :
    (r.revised overrides).value (.stored a : Attribute S C) =
      (StoredAttributes.kind a).shown v := by
  simp only [value, revised, ha, h, Kind.shown]
  cases (StoredAttributes.kind a).written v <;> rfl

end Record

/-- An attribute that both records have is of the same kind in both. -/
theorem kind_eq_of_name_eq {a : ApplicantAttribute} {b : ContextAttribute}
    (h : StoredAttributes.name a = StoredAttributes.name b) :
    StoredAttributes.kind a = StoredAttributes.kind b := by
  have hall : ∀ a ∈ (StoredAttributes.all : List ApplicantAttribute),
      ∀ b ∈ (StoredAttributes.all : List ContextAttribute),
        StoredAttributes.name a = StoredAttributes.name b →
          StoredAttributes.kind a = StoredAttributes.kind b := by decide +kernel
  exact hall a (by cases a <;> decide) b (by cases b <;> decide) h

/-- What is computed from the applicant's record stands under no name of the context. -/
theorem computed_name_ne (c : ComputedField) (b : ContextAttribute) :
    ComputedAttributes.name ApplicantAttribute c ≠ StoredAttributes.name b := by
  have hall : ∀ c ∈ ComputedField.all, ∀ b ∈ (StoredAttributes.all : List ContextAttribute),
      ComputedAttributes.name ApplicantAttribute c ≠ StoredAttributes.name b := by decide +kernel
  exact hall c (by cases c <;> decide) b (by cases b <;> decide)

/-- An overridden attribute that both records have shows the same in both. -/
theorem lookup_revised_eq (p : Applicant) (ctx : Context) {overrides : Dict Value} {key : String}
    (hkey : key ∈ overrides.keys) (hp : Record.Knows ApplicantAttribute key)
    (hctx : Record.Knows ContextAttribute key) :
    (p.revised overrides).lookup key = (ctx.revised overrides).lookup key := by
  obtain ⟨x, hx⟩ := hp
  obtain ⟨y, hy⟩ := hctx
  rw [Record.lookup, Record.lookup, Attribute.ofName?_eq_some_iff.2 hx,
    Attribute.ofName?_eq_some_iff.2 hy]
  cases y with
  | computed c => exact nomatch c
  | stored b =>
    cases x with
    | computed c => exact absurd (hx.trans hy.symm) (computed_name_ne c b)
    | stored a =>
      obtain ⟨v, hv⟩ := Record.lastOverride?_of_mem hkey
      rw [Option.map_some, Option.map_some, p.value_revised hx hv, ctx.value_revised hy hv,
        kind_eq_of_name_eq (hx.trans hy.symm)]

end Lending
