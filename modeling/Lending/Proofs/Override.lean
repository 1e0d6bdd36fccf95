import Lending.Command
import Lending.Proofs.Json.Flag
import Lending.Proofs.Record

/-! Overrides of texts.

An override `name=value` is read as JSON where it is JSON, and else as the text that it is. A text
attribute takes numbers and truth values as they are shown. A truth value is shown as it was
written, but of a number the double is shown and not the literal, so a text that is a number in
JSON is kept if it is how that number is shown, and is rewritten otherwise
(`overrides_keep_texts`). Which double it is, the reader's conversion says. -/
namespace Lending

/-! ### Names -/

/-- The names of attributes hold no equals sign and no outer blanks. -/
class NamedPlainly (S C : Type) [StoredAttributes S] [ComputedAttributes S C] : Prop where
  plain : ∀ x ∈ (Attribute.all : List (Attribute S C)),
    '=' ∉ x.name.toList ∧ Text.trim x.name = x.name ∧ Text.isBlankText x.name = false

instance : NamedPlainly ApplicantAttribute ComputedField where
  plain := by decide +kernel

instance : NamedPlainly ContextAttribute Empty where
  plain := by decide +kernel

/-- A text is cut at the first of its separators. -/
theorem Text.splitOnce_append {c : Char} {name : String} (h : c ∉ name.toList) (rest : List Char) :
    Text.splitOnce c (name ++ String.ofList (c :: rest)) = some (name, String.ofList rest) := by
  have hname : ∀ d ∈ name.toList, (d != c) = true := by
    intro d hd
    rw [bne_iff_ne]
    rintro rfl
    exact h hd
  have hdrop : (name.toList ++ c :: rest).dropWhile (· != c) = c :: rest := by
    rw [List.dropWhile_append_of_pos hname, List.dropWhile_cons_of_neg (by simp)]
  have htake : (name.toList ++ c :: rest).takeWhile (· != c) = name.toList := by
    rw [List.takeWhile_append_of_pos hname, List.takeWhile_cons_of_neg (by simp), List.append_nil]
  rw [Text.splitOnce, String.toList_append, String.toList_ofList, hdrop, htake,
    String.ofList_toList]

namespace Command

/-- A text without outer blanks that is no null, text, array or object in JSON. -/
structure IsPlain (reals : Json.Conversion) (t : String) : Prop where
  nonempty : t ≠ ""
  trimmed : Text.trim t = t
  scalar : ∀ d, Json.read t reals = some d → d ≠ .null ∧ (∀ s, d ≠ .text s) ∧
    (∀ items, d ≠ .sequence items) ∧ ∀ members, d ≠ .mapping members

/-- What a text attribute keeps of a text: the text, or the number that it is read as, as that is
shown. -/
def keptText (reals : Json.Conversion) (t : String) : String :=
  match Json.read t reals with
  | some (.integer n) => Value.numberText (Number.ofInt n)
  | some (.real x) => Value.numberText x
  | _ => t

variable {reals : Json.Conversion}

/-- A text attribute takes every plain text. -/
theorem text?_overrideValue {t : String} (h : IsPlain reals t) :
    Kind.text? (overrideValue reals t) = some (keptText reals t) := by
  unfold overrideValue keptText
  cases hread : Json.read t reals with
  | none => rfl
  | some d =>
    obtain ⟨hnull, htext, hsequence, hmapping⟩ := h.scalar d hread
    cases d with
    | null => exact absurd rfl hnull
    | text s => exact absurd rfl (htext s)
    | sequence items => exact absurd rfl (hsequence items)
    | mapping members => exact absurd rfl (hmapping members)
    | tagged tag content => cases (Option.filter_eq_some_iff.1 hread).2
    | integer n => rfl
    | real x => rfl
    | flag b =>
      -- The two texts of truth values are how they are shown.
      have ht := Json.text_of_read_flag h.trimmed hread
      subst ht
      cases b <;> rfl

variable {S C : Type} [StoredAttributes S] [ComputedAttributes S C]

theorem parseOverride_eq [NamedApart S C] [NamedPlainly S C] (reals : Json.Conversion)
    (x : Attribute S C) {t : String} (h : Text.trim t = t) :
    parseOverride (x.name ++ "=" ++ t) reals = .ok (x.name, overrideValue reals t) := by
  obtain ⟨hsign, htrim, hblank⟩ := NamedPlainly.plain x (NamedApart.listed x)
  have hsplit := Text.splitOnce_append hsign t.toList
  have hargument : x.name ++ "=" ++ t = x.name ++ String.ofList ('=' :: t.toList) := by
    rw [String.append_assoc, String.ofList_cons]
    rw [String.ofList_toList]
    rfl
  rw [parseOverride, hargument, hsplit, String.ofList_toList]
  simp only [hblank, htrim, h]
  rfl

end Command

/-! ### Text attributes -/

theorem Kind.takes_text {k : Kind} (hk : k = .text) {v : Value} {s : String}
    (h : Kind.text? v = some s) : k.Takes v ∧ k.shown v = .text s := by
  subst hk
  have hv : v ≠ .null := by
    rintro rfl
    cases h
  have hvalue : Kind.ofValue? .text v = some s := h
  constructor
  · exact .inr (by rw [hvalue]; rfl)
  · rw [shown, written_of_ne_null _ hv, hvalue]
    rfl

section
variable {S C : Type} [StoredAttributes S] [ComputedAttributes S C]

/-- The argument is read as an override of the attribute, which makes the one record of the other
and writes nothing else. -/
structure Record.Overridden (reals : Json.Conversion) (r r' : Record S) (a : S)
    (argument : String) : Prop where
  written : ∃ v, Command.parseOverride argument reals = .ok (StoredAttributes.name a, v) ∧
    r.override (StoredAttributes.name a) v = .ok (some r')
  others : ∀ b, b ≠ a → r'.get b = r.get b

/-- One text attribute of one record. -/
theorem Record.exists_overridden [NamedApart S C] [NamedPlainly S C] (r : Record S) {a : S}
    (ha : StoredAttributes.kind a = .text) {reals : Json.Conversion} {t : String}
    (ht : Command.IsPlain reals t) :
    ∃ r', r.Overridden reals r' a (StoredAttributes.name a ++ "=" ++ t) ∧
      r'.value (.stored a : Attribute S C) = .text (Command.keptText reals t) := by
  have hparse := Command.parseOverride_eq reals (.stored a : Attribute S C) ht.trimmed
  obtain ⟨htakes, hshown⟩ := Kind.takes_text ha (Command.text?_overrideValue ht)
  obtain ⟨-, htrim, -⟩ := NamedPlainly.plain (.stored a : Attribute S C) (NamedApart.listed _)
  have hfound : Attribute.ofName? (StoredAttributes.name a) = some (.stored a : Attribute S C) :=
    Attribute.ofName?_eq_some_iff.2 htrim.symm
  rcases r.set_stored_cases (C := C) a (Command.overrideValue reals t) with
    ⟨_, hset⟩ | ⟨hrefused, _⟩
  · let w := (StoredAttributes.kind a).written (Command.overrideValue reals t)
    have hoverride : r.override (StoredAttributes.name a) (Command.overrideValue reals t) =
        .ok (some (r.put a w)) := by
      rw [Record.override, hfound]
      exact congrArg (Except.map some) hset
    refine ⟨r.put a w, ⟨⟨_, hparse, hoverride⟩, fun b hb => r.get_put_of_ne hb w⟩, ?_⟩
    rw [r.value_put_written, hshown]
  · exact absurd htakes hrefused

end

/-- **An override of a text attribute keeps the text, or the number that it is read as.** A number
is kept as it is shown, any other text as it was written, however number literals are converted. -/
theorem overrides_keep_texts (reals : Json.Conversion) :
    (∀ (r : Applicant) (a : ApplicantAttribute) (t : String), StoredAttributes.kind a = .text →
      Command.IsPlain reals t →
        ∃ r', r.Overridden reals r' a (StoredAttributes.name a ++ "=" ++ t) ∧
          r'.value (.stored a : RuleField) = .text (Command.keptText reals t)) ∧
    ∀ (r : Context) (a : ContextAttribute) (t : String), StoredAttributes.kind a = .text →
      Command.IsPlain reals t →
        ∃ r', r.Overridden reals r' a (StoredAttributes.name a ++ "=" ++ t) ∧
          r'.value (.stored a : ContextField) = .text (Command.keptText reals t) :=
  ⟨fun r _ _ ha ht => r.exists_overridden ha ht, fun r _ _ ha ht => r.exists_overridden ha ht⟩

theorem Command.isPlain_of_number {reals : Json.Conversion} {t : String} (hnonempty : t ≠ "")
    (htrimmed : Text.trim t = t)
    (hnumber : ((Json.read t reals).bind Document.number?).isSome = true) :
    Command.IsPlain reals t := by
  refine ⟨hnonempty, htrimmed, fun d hd => ?_⟩
  rw [hd, Option.bind_some] at hnumber
  cases d <;> simp_all [Document.number?, Document.untagged]

/-- A number with a zero in front is no number in JSON, a word is a text in either record, and a
large number is stored as the double that scaling gives, which is not the nearest. -/
theorem overrides_keep_texts_leading_zero : Command.IsPlain Json.scaled "007" ∧
    Command.IsPlain Json.scaled "true" ∧ Command.IsPlain Json.scaled "3e23" ∧
    (∃ r', Record.empty.Overridden Json.scaled r' ContextAttribute.merchantId "merchant_id=007" ∧
      r'.value (.stored .merchantId : ContextField) = .text "007") ∧
    (∃ r', Record.empty.Overridden Json.scaled r' ApplicantAttribute.loanPurpose
        "loan_purpose=true" ∧
      r'.value (.stored .loanPurpose : RuleField) = .text "true") ∧
    ∃ r', Record.empty.Overridden Json.scaled r' ContextAttribute.merchantId "merchant_id=3e23" ∧
      r'.value (.stored .merchantId : ContextField) = .text "299999999999999970000000" := by
  have hzero : Command.IsPlain Json.scaled "007" := by
    have hnone : Json.read "007" Json.scaled = none := by decide +kernel
    exact ⟨by decide, by decide +kernel, fun d hd => by cases hnone.symm.trans hd⟩
  have hword : Command.IsPlain Json.scaled "true" := by
    have hflag : Json.read "true" Json.scaled = some (.flag true) := by rfl
    refine ⟨by decide, by decide +kernel, fun d hd => ?_⟩
    cases hflag.symm.trans hd
    simp
  have hlarge : Command.IsPlain Json.scaled "3e23" :=
    Command.isPlain_of_number (by decide) (by decide +kernel) (by decide +kernel)
  have hkept : Command.keptText Json.scaled "007" = "007" := by decide +kernel
  have hshown : Command.keptText Json.scaled "true" = "true" := by decide +kernel
  have hscaled : Command.keptText Json.scaled "3e23" = "299999999999999970000000" := by
    decide +kernel
  obtain ⟨applicants, contexts⟩ := overrides_keep_texts Json.scaled
  refine ⟨hzero, hword, hlarge, ?_, ?_, ?_⟩
  · obtain ⟨r', hr', hvalue⟩ := contexts Record.empty .merchantId "007" rfl hzero
    exact ⟨r', hr', hvalue.trans (congrArg Value.text hkept)⟩
  · obtain ⟨r', hr', hvalue⟩ := applicants Record.empty .loanPurpose "true" rfl hword
    exact ⟨r', hr', hvalue.trans (congrArg Value.text hshown)⟩
  · obtain ⟨r', hr', hvalue⟩ := contexts Record.empty .merchantId "3e23" rfl hlarge
    exact ⟨r', hr', hvalue.trans (congrArg Value.text hscaled)⟩

/-- A literal with a zero at its end is not kept as it was written. -/
theorem override_rewrites_number : ¬ ∀ (r : Context) (a : ContextAttribute) (t : String),
    StoredAttributes.kind a = .text → Command.IsPlain Json.scaled t →
      ∃ r', r.Overridden Json.scaled r' a (StoredAttributes.name a ++ "=" ++ t) ∧
        r'.value (.stored a : ContextField) = .text t := by
  intro h
  have hplain : Command.IsPlain Json.scaled "1.50" :=
    Command.isPlain_of_number (by decide) (by decide +kernel) (by decide +kernel)
  have hkept : Command.keptText Json.scaled "1.50" = "1.5" := by decide +kernel
  obtain ⟨r', ⟨⟨v, hparse, hr'⟩, _⟩, hvalue⟩ := h Record.empty .merchantId "1.50" rfl hplain
  obtain ⟨r'', ⟨⟨v', hparse', hr''⟩, _⟩, hvalue'⟩ :=
    Record.exists_overridden (C := Empty) Record.empty (a := ContextAttribute.merchantId) rfl hplain
  cases hparse.symm.trans hparse'
  cases hr'.symm.trans hr''
  rw [hvalue, hkept] at hvalue'
  exact absurd (Value.text.inj hvalue') (by decide)

end Lending
