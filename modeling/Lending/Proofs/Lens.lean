import Lending.Proofs.Comparison
import Lending.Proofs.Number.Count
import Lending.Proofs.Record

/-! Attributes as lenses.

What an attribute shows after it was written is what its kind makes of the value (`Kind.Coerces`),
whatever the record held before, and it takes that value again as it stands. So a write that
succeeds is read back, does nothing a second time and leaves no trace of the one before
(`Record.Lens`). Overrides are such writes in key order, and of several that name one attribute,
blanks apart, the last one counts (`Record.TakesOverrides`). -/
namespace Lending

/-- An attribute of the kind shows the second value after the first was written. -/
inductive Kind.Coerces : Kind → Value → Value → Prop
  /-- Null clears every attribute. -/
  | null (k : Kind) : Coerces k .null .null
  | number {v : Value} {x : Float} (h : v.number? = some x) : Coerces .number v (.number x)
  /-- The count that the number equals. -/
  | count {v : Value} {x : Float} {n : UInt32} (h : v.number? = some x)
    (hn : (x == n.toFloat) = true) : Coerces .count v (.number n.toFloat)
  | flag {v : Value} {b : Bool} (h : v.flag? = some b) : Coerces .flag v (.flag b)
  | text (s : String) : Coerces .text (.text s) (.text s)
  | numberText (x : Float) : Coerces .text (.number x) (.text (Value.numberText x))
  | flagText (b : Bool) : Coerces .text (.flag b) (.text (if b then "true" else "false"))

namespace Kind
variable {k : Kind} {v w : Value}

/-! ### Coercions -/

theorem coerces_iff_of_ne_null (hv : v ≠ .null) :
    k.Coerces v w ↔ ∃ c, k.ofValue? v = some c ∧ k.toValue c = w := by
  constructor
  · intro h
    cases h with
    | null => exact absurd rfl hv
    | number h => exact ⟨_, h, rfl⟩
    | count h hn =>
      have hcount := Number.count?_eq_some_iff.2 ⟨Value.isFinite_of_number? h, hn⟩
      exact ⟨_, Option.bind_eq_some_iff.2 ⟨_, h, hcount⟩, rfl⟩
    | flag h => exact ⟨_, h, rfl⟩
    | text s => exact ⟨s, rfl, rfl⟩
    | numberText x => exact ⟨_, rfl, rfl⟩
    | flagText b => exact ⟨_, rfl, rfl⟩
  · rintro ⟨c, hc, rfl⟩
    cases k with
    | number => exact .number hc
    | count =>
      obtain ⟨x, hx, hn⟩ := Option.bind_eq_some_iff.1 hc
      exact .count hx (Number.count?_eq_some_iff.1 hn).2
    | flag => exact .flag hc
    | text =>
      cases v with
      | null => exact absurd rfl hv
      | flag b => cases hc; exact .flagText b
      | number x => cases hc; exact .numberText x
      | text s => cases hc; exact .text _
      | array | object => cases hc

/-- Every value that a kind takes is coerced, to what is shown of it. -/
theorem coerces_iff : k.Coerces v w ↔ k.Takes v ∧ k.shown v = w := by
  by_cases hv : v = .null
  · subst hv
    constructor
    · intro h
      cases h with
      | null => exact ⟨.inl rfl, rfl⟩
      | number h | count h | flag h => cases h
    · rintro ⟨-, rfl⟩
      exact .null k
  · rw [coerces_iff_of_ne_null hv, Takes, or_iff_right hv, shown, written_of_ne_null k hv]
    cases k.ofValue? v <;> simp

theorem takes_iff : k.Takes v ↔ ∃ w, k.Coerces v w := by
  constructor
  · intro h
    exact ⟨k.shown v, coerces_iff.2 ⟨h, rfl⟩⟩
  · rintro ⟨w, h⟩
    exact (coerces_iff.1 h).1

/-- Numbers are finite once they are coerced. -/
theorem Coerces.isFinite {x : Float} (h : k.Coerces v (.number x)) : x.isFinite = true := by
  cases h with
  | number h => exact Value.isFinite_of_number? h
  | count h hn => exact (Number.units_toFloat _).1

/-- What an attribute holds, it takes for itself. -/
theorem ofValue?_toValue (c : k.Carrier) (hc : ∀ x, k.toValue c = .number x → x.isFinite = true) :
    k.ofValue? (k.toValue c) = some c := by
  cases k with
  | number => exact if_pos (hc c rfl)
  | count =>
    have hnumber : (toValue .count c).number? = some (UInt32.toFloat c) :=
      if_pos (Number.units_toFloat c).1
    exact Option.bind_eq_some_iff.2 ⟨_, hnumber, Number.count?_toFloat c⟩
  | flag | text => rfl

theorem toValue_ne_null (c : k.Carrier) : k.toValue c ≠ .null := by
  cases k <;> exact nofun

end Kind

namespace Record
variable {S C : Type} [StoredAttributes S] [ComputedAttributes S C] {r r' : Record S} {a : S}
  {v w : Value}

/-- No attribute shows an infinity or a not-a-number. -/
def HasFiniteNumbers (r : Record S) : Prop :=
  ∀ (a : S) (x : Float), r.value (.stored a : Attribute S C) = .number x → x.isFinite = true

theorem hasFiniteNumbers_empty : (empty : Record S).HasFiniteNumbers :=
  fun _ _ h => by cases h

/-! ### Writing -/

theorem put_get (r : Record S) (a : S) : r.put a (r.get a) = r := by
  ext b
  by_cases hb : b = a
  · subst hb
    rw [get_put_self]
  · rw [r.get_put_of_ne hb]

theorem put_put (r : Record S) (a : S) (c d : Option (StoredAttributes.kind a).Carrier) :
    (r.put a c).put a d = r.put a d := by
  ext b
  by_cases hb : b = a
  · subst hb
    rw [get_put_self, get_put_self]
  · rw [get_put_of_ne _ hb, get_put_of_ne _ hb, get_put_of_ne _ hb]

theorem value_put_of_ne (r : Record S) {b : S} (h : b ≠ a)
    (c : Option (StoredAttributes.kind a).Carrier) :
    (r.put a c).value (.stored b : Attribute S C) = r.value (.stored b : Attribute S C) := by
  simp only [value, r.get_put_of_ne h]

theorem HasFiniteNumbers.put (hr : r.HasFiniteNumbers)
    {c : Option (StoredAttributes.kind a).Carrier}
    (hc : ∀ x, (r.put a c).value (.stored a : Attribute S C) = .number x → x.isFinite = true) :
    (r.put a c).HasFiniteNumbers := by
  intro b x hx
  by_cases hb : b = a
  · subst hb
    exact hc x hx
  · rw [r.value_put_of_ne hb] at hx
    exact hr b x hx

/-- A write does not see the one before it. -/
theorem set_put (r : Record S) (a : S) (c : Option (StoredAttributes.kind a).Carrier) (v : Value) :
    (r.put a c).set (.stored a : Attribute S C) v = r.set (.stored a : Attribute S C) v := by
  by_cases hv : v = .null
  · subst hv
    exact congrArg Except.ok (r.put_put a c none)
  · rw [set_of_ne_null _ a hv, set_of_ne_null _ a hv]
    simp only [put_put]

/-- Writing back what is read changes nothing. -/
theorem set_value (r : Record S) (a : S)
    (h : ∀ x, r.value (.stored a : Attribute S C) = .number x → x.isFinite = true) :
    r.set (.stored a : Attribute S C) (r.value (.stored a : Attribute S C)) = .ok r := by
  cases hget : r.get a with
  | none =>
    have hvalue : r.value (.stored a : Attribute S C) = .null := by simp only [value, hget]
    rw [hvalue, set, ← hget, put_get]
  | some c =>
    have hvalue : r.value (.stored a : Attribute S C) = (StoredAttributes.kind a).toValue c := by
      simp only [value, hget]
    rw [hvalue] at h ⊢
    rw [set_of_ne_null r a (Kind.toValue_ne_null c), Kind.ofValue?_toValue c h]
    show Except.ok (r.put a (some c)) = _
    rw [← hget, put_get]

/-- What a write that succeeds makes of a record. -/
structure Written (r r' : Record S) (a : S) (v w : Value) : Prop where
  shown : r'.value (.stored a : Attribute S C) = w
  /-- Neither the value nor what is shown of it changes anything a second time. -/
  again : r'.set (.stored a : Attribute S C) v = .ok r' ∧
    r'.set (.stored a : Attribute S C) w = .ok r'
  others : ∀ b, b ≠ a → r'.get b = r.get b ∧
    r'.value (.stored b : Attribute S C) = r.value (.stored b : Attribute S C)
  /-- What is written next is written as if this had not been. -/
  overruled : ∀ u, r'.set (.stored a : Attribute S C) u = r.set (.stored a : Attribute S C) u
  /-- So the record that was written obeys the same laws. -/
  finite : r.HasFiniteNumbers → r'.HasFiniteNumbers

theorem set_of_coerces (h : (StoredAttributes.kind a).Coerces v w) :
    r.set (.stored a : Attribute S C) v =
      .ok (r.put a ((StoredAttributes.kind a).written v)) := by
  obtain ⟨htakes, -⟩ := Kind.coerces_iff.1 h
  rcases r.set_stored_cases (C := C) a v with ⟨-, hset⟩ | ⟨hrefused, -⟩
  · exact hset
  · exact absurd htakes hrefused

theorem written_of_coerces (r : Record S) (h : (StoredAttributes.kind a).Coerces v w) :
    Written (C := C) r (r.put a ((StoredAttributes.kind a).written v)) a v w := by
  let r' := r.put a ((StoredAttributes.kind a).written v)
  have hshown : r'.value (.stored a : Attribute S C) = w :=
    (r.value_put_written a v).trans (Kind.coerces_iff.1 h).2
  have hfinite : ∀ x, r'.value (.stored a : Attribute S C) = .number x → x.isFinite = true := by
    intro x hx
    rw [hshown] at hx
    subst hx
    exact h.isFinite
  constructor
  case shown => exact hshown
  case again =>
    constructor
    · rw [set_put, set_of_coerces h]
    · rw [← hshown]
      exact r'.set_value a hfinite
  case others => exact fun b hb => ⟨r.get_put_of_ne hb _, r.value_put_of_ne hb _⟩
  case overruled => exact r.set_put a _
  case finite => exact fun hr => hr.put hfinite

/-! ### Writing in place -/

/-- Writes an attribute of the record at hand. -/
def write (x : Attribute S C) (v : Value) : ExceptT DataError (StateM (Record S)) Unit :=
  match x, v with
  | .computed c, _ => throw (.computed (ComputedAttributes.name S c))
  | .stored a, .null => modify (·.put a none)
  | .stored a, v =>
    match (StoredAttributes.kind a).ofValue? v with
    | some c => modify (·.put a (some c))
    | none => throw (.wrongKind (StoredAttributes.name a) (StoredAttributes.kind a) v.kindName)

/-- The record at hand is replaced by the one with the attribute set, or it stays. -/
theorem write_run (x : Attribute S C) (v : Value) (r : Record S) :
    (write x v).run.run r =
      match r.set x v with
      | .ok r' => (.ok (), r')
      | .error fault => (.error fault, r) := by
  cases x with
  | computed c => rfl
  | stored a =>
    by_cases hv : v = .null
    · subst hv
      rfl
    · have hwrite : write (.stored a : Attribute S C) v =
          match (StoredAttributes.kind a).ofValue? v with
          | some c => modify (·.put a (some c))
          | none => throw (.wrongKind (StoredAttributes.name a) (StoredAttributes.kind a)
              v.kindName) := by
        cases v with
        | null => exact absurd rfl hv
        | _ => rfl
      rw [hwrite, set_of_ne_null r a hv]
      cases (StoredAttributes.kind a).ofValue? v <;> rfl

/-- The laws of reading and writing the attributes of a record. -/
structure Lens (r : Record S) : Prop where
  kept : ∀ a : S, r.set (.stored a : Attribute S C) (r.value (.stored a : Attribute S C)) = .ok r
  written : ∀ (a : S) (v w : Value), (StoredAttributes.kind a).Coerces v w →
    ∃ r', r.set (.stored a : Attribute S C) v = .ok r' ∧ Written (C := C) r r' a v w
  refused : ∀ (a : S) (v : Value), (∀ w, ¬ (StoredAttributes.kind a).Coerces v w) →
    r.set (.stored a : Attribute S C) v =
      .error (.wrongKind (StoredAttributes.name a) (StoredAttributes.kind a) v.kindName)
  computed : ∀ (c : C) (v : Value), r.set (.computed c : Attribute S C) v =
    .error (.computed (ComputedAttributes.name S c))
  /-- A write in place that fails leaves the record as it was. -/
  unchanged : ∀ (x : Attribute S C) (v : Value) (fault : DataError), r.set x v = .error fault →
    (write x v).run.run r = (.error fault, r)
  changed : ∀ (x : Attribute S C) (v : Value) (r' : Record S), r.set x v = .ok r' →
    (write x v).run.run r = (.ok (), r')

/-- **A record whose numbers are finite obeys the laws.** -/
theorem HasFiniteNumbers.lens (hr : r.HasFiniteNumbers) : r.Lens := by
  constructor
  case kept => exact fun a => r.set_value a (hr a)
  case written => exact fun a v w h => ⟨_, set_of_coerces h, r.written_of_coerces h⟩
  case refused =>
    intro a v hv
    have hrefused : ¬ (StoredAttributes.kind a).Takes v := by
      rw [Kind.takes_iff]
      exact not_exists.2 hv
    obtain ⟨hnull, hnone⟩ := not_or.1 hrefused
    rw [set_of_ne_null r a hnull, Option.not_isSome_iff_eq_none.1 hnone]
  case computed => exact fun c v => rfl
  case unchanged =>
    intro x v fault hset
    rw [write_run, hset]
  case changed =>
    intro x v r' hset
    rw [write_run, hset]

/-! ### Overriding -/

variable (S) in
/-- The key names a computed attribute, or a stored one that does not take the value. -/
inductive Rejects : String × Value → Prop
  | computed {key : String} {v : Value} (c : C)
    (h : (Attribute.ofName? key : Option (Attribute S C)) = some (.computed c)) : Rejects (key, v)
  | stored {key : String} {v : Value} (a : S)
    (h : (Attribute.ofName? key : Option (Attribute S C)) = some (.stored a))
    (hv : ∀ w, ¬ (StoredAttributes.kind a).Coerces v w) : Rejects (key, v)

/-- What has become of an attribute: of the keys that name it the greatest one counts, and without
any it is as it was. -/
inductive Outcome (r r' : Record S) (overrides : Dict Value) (a : S) : Prop
  | overridden {key : String} {v w : Value} (hmem : (key, v) ∈ overrides)
    (hname : Text.trim key = StoredAttributes.name a)
    (hgreatest : ∀ other ∈ overrides.keys, Text.trim other = StoredAttributes.name a → other ≤ key)
    (hcoerces : (StoredAttributes.kind a).Coerces v w)
    (hvalue : r'.value (.stored a : Attribute S C) = w)
  | kept (hnone : ∀ key ∈ overrides.keys, Text.trim key ≠ StoredAttributes.name a)
    (hget : r'.get a = r.get a)

/-- The laws of overriding attributes of a record. -/
structure TakesOverrides (r : Record S) (overrides : Dict Value) : Prop where
  fails_iff : (∃ fault, r.withOverrides overrides = .error fault) ↔
    ∃ e ∈ overrides, Rejects S (C := C) e
  outcome : ∀ r' unknown, r.withOverrides overrides = .ok (r', unknown) →
    (unknown = overrides.keys.filter fun key =>
      (Attribute.ofName? key : Option (Attribute S C)).isNone) ∧
    ∀ a, Outcome (C := C) r r' overrides a

theorem lastOverride?_eq_none_iff {name : String} {overrides : Dict Value} :
    lastOverride? name overrides = none ↔ ∀ key ∈ overrides.keys, Text.trim key ≠ name := by
  simp only [lastOverride?, Option.map_eq_none_iff, List.find?_eq_none, List.mem_reverse,
    beq_iff_eq, Dict.keys, List.mem_map]
  constructor
  · rintro h key ⟨e, he, rfl⟩ hname
    exact h e he hname.symm
  · intro h e he hname
    exact h e.1 ⟨e, he, rfl⟩ hname.symm

/-- The last of the overrides that name an attribute is the one under the greatest key. -/
theorem greatest_of_lastOverride? {name : String} {overrides : Dict Value} {v : Value}
    (hsorted : overrides.Sorted) (h : lastOverride? name overrides = some v) :
    ∃ key, (key, v) ∈ overrides ∧ Text.trim key = name ∧
      ∀ other ∈ overrides.keys, Text.trim other = name → other ≤ key := by
  induction overrides with
  | nil => cases h
  | cons e rest ih =>
    obtain ⟨hfirst, hrest⟩ := List.pairwise_cons.1 hsorted
    rw [lastOverride?_cons] at h
    cases hlast : lastOverride? name rest with
    | some u =>
      obtain rfl : u = v := by
        rw [hlast] at h
        exact Option.some.inj h
      obtain ⟨key, hmem, hname, hgreatest⟩ := ih hrest hlast
      refine ⟨key, List.mem_cons_of_mem _ hmem, hname, ?_⟩
      intro other hother hnamed
      rcases List.mem_cons.1 hother with rfl | hother
      · exact (hfirst _ hmem).le
      · exact hgreatest other hother hnamed
    | none =>
      rw [hlast, Option.none_or] at h
      obtain ⟨hname, hv⟩ := Option.ite_none_right_eq_some.1 h
      obtain rfl : e.2 = v := Option.some.inj hv
      refine ⟨e.1, List.mem_cons_self, hname.symm, ?_⟩
      intro other hother hnamed
      rcases List.mem_cons.1 hother with rfl | hother
      · exact le_rfl
      · exact absurd hnamed (lastOverride?_eq_none_iff.1 hlast other hother)

/-- An attribute of the record with all overrides written. -/
theorem outcome_revised (r : Record S) {overrides : Dict Value} (hsorted : overrides.Sorted)
    (h : ∀ e ∈ overrides, ¬ Refuses S e) (a : S) :
    Outcome (C := C) r (r.revised overrides) overrides a := by
  cases hlast : lastOverride? (StoredAttributes.name a) overrides with
  | none =>
    refine .kept (lastOverride?_eq_none_iff.1 hlast) ?_
    simp only [revised, hlast]
  | some v =>
    obtain ⟨key, hmem, hname, hgreatest⟩ := greatest_of_lastOverride? hsorted hlast
    have htakes : (StoredAttributes.kind a).Takes v := by
      by_contra hrefused
      exact h _ hmem (.inr ⟨a, hname.symm, hrefused⟩)
    exact .overridden hmem hname hgreatest (Kind.coerces_iff.2 ⟨htakes, rfl⟩)
      (r.value_revised rfl hlast)

section
variable [NamedApart S C]

theorem rejects_iff (e : String × Value) : Rejects S (C := C) e ↔ Refuses S e := by
  constructor
  · rintro (⟨c, h⟩ | ⟨a, h, hv⟩)
    · exact .inl ⟨c, Attribute.ofName?_eq_some_iff.1 h⟩
    · exact .inr ⟨a, Attribute.ofName?_eq_some_iff.1 h,
        Kind.takes_iff.not.2 (not_exists.2 hv)⟩
  · rintro (⟨c, h⟩ | ⟨a, h, hv⟩)
    · exact .computed c (Attribute.ofName?_eq_some_iff.2 h)
    · exact .stored a (Attribute.ofName?_eq_some_iff.2 h)
        (not_exists.1 (Kind.takes_iff.not.1 hv))

theorem ofName?_isNone_iff (key : String) :
    (Attribute.ofName? key : Option (Attribute S C)).isNone = true ↔ ¬ Knows S key := by
  rw [Option.isNone_iff_eq_none, Option.eq_none_iff_forall_ne_some, Knows, not_exists]
  exact forall_congr' fun x => Attribute.ofName?_eq_some_iff.not

/-- **Overrides are written or refused together.** -/
theorem takesOverrides (r : Record S) {overrides : Dict Value} (hsorted : overrides.Sorted) :
    r.TakesOverrides overrides := by
  by_cases h : ∃ e ∈ overrides, Refuses S e
  · obtain ⟨fault, hfault⟩ := r.withOverrides_error h
    constructor
    case fails_iff =>
      refine iff_of_true ⟨fault, hfault⟩ ?_
      simpa only [rejects_iff] using h
    case outcome =>
      intro r' unknown hok
      cases hfault.symm.trans hok
  · have haccepts : ∀ e ∈ overrides, ¬ Refuses S e := fun e he hrefused => h ⟨e, he, hrefused⟩
    have hok := r.withOverrides_ok haccepts
    constructor
    case fails_iff =>
      refine iff_of_false ?_ ?_
      · rintro ⟨fault, hfault⟩
        cases hok.symm.trans hfault
      · simpa only [rejects_iff] using h
    case outcome =>
      intro r' unknown hwritten
      cases hok.symm.trans hwritten
      refine ⟨List.filter_congr fun key _ => ?_, r.outcome_revised hsorted haccepts⟩
      rw [Bool.eq_iff_iff, ofName?_isNone_iff, decide_eq_true_iff]

end

end Record

/-- **Applicants and contexts obey the laws of reading, writing and overriding.** -/
theorem records_obey_lens_laws {p : Applicant} {ctx : Context} (hp : p.HasFiniteNumbers)
    (hctx : ctx.HasFiniteNumbers) {overrides : Dict Value} (hsorted : overrides.Sorted) :
    (p.Lens ∧ p.TakesOverrides overrides) ∧ ctx.Lens ∧ ctx.TakesOverrides overrides :=
  ⟨⟨hp.lens, p.takesOverrides hsorted⟩, hctx.lens, ctx.takesOverrides hsorted⟩

/-- Two overrides name the loan's purpose, with blanks, and one names nothing of an applicant. -/
def paddedOverrides : Dict Value :=
  [(" loan_purpose", .text "car"), ("loan_purpose ", .text "boat"), ("merchant_tier", .text "gold")]

/-- The second of the two is in force. -/
theorem records_obey_lens_laws_padded : ∃ p : Applicant, p.HasFiniteNumbers ∧
    p.value (.stored .age : RuleField) = .number 40 ∧ paddedOverrides.Sorted ∧
    ((p.Lens ∧ p.TakesOverrides paddedOverrides) ∧ (Record.empty : Context).Lens ∧
      (Record.empty : Context).TakesOverrides paddedOverrides) ∧
    ∃ r', p.withOverrides paddedOverrides = .ok (r', ["merchant_tier"]) ∧
      r'.value (.stored .loanPurpose : RuleField) = .text "boat" := by
  let p : Applicant := Record.empty.put .age (some (40 : Float))
  have hforty : (40 : Float).isFinite = true := by decide +kernel
  have hp : p.HasFiniteNumbers :=
    Record.hasFiniteNumbers_empty.put fun x hx => Value.number.inj hx ▸ hforty
  have hsorted : paddedOverrides.Sorted := by
    unfold Dict.Sorted
    decide
  exact ⟨p, hp, rfl, hsorted, records_obey_lens_laws hp Record.hasFiniteNumbers_empty hsorted,
    _, rfl, rfl⟩

end Lending
