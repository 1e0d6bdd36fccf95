import Mathlib
import Lending.Proofs.Text.Lines
import Lending.Value

/-! What a text says beyond its spelling.

Two texts with the same keyword differ only in outer blanks and in the case of their letters, and
every coercion reads both alike: a number is read by its digits, signs, points and exponents, none
of which is a matter of case (`Number.ofText?_lower`), and a text is missing if its keyword is
empty (`Value.isMissing_text`). -/
namespace Lending

/-! ### Keywords -/

namespace Text

theorem toLower_of_not_isAlpha {c : Char} (h : c.isAlpha = false) : c.toLower = c := by
  rw [Char.isAlpha, Bool.or_eq_false_iff] at h
  exact Char.toLower_eq_of_not_isUpper (by simp [h.1])

/-- Only the character itself becomes one that is no letter. -/
theorem toLower_eq_iff {c d : Char} (hd : d.isAlpha = false) : c.toLower = d ↔ c = d := by
  constructor
  · rintro rfl
    rw [Char.isAlpha_toLower_eq_isAlpha] at hd
    exact (toLower_of_not_isAlpha hd).symm
  · rintro rfl
    exact toLower_of_not_isAlpha hd

@[simp] theorem lowerChars_lowerChars (cs : List Char) :
    lowerChars (lowerChars cs) = lowerChars cs := by
  simp [lowerChars]

@[simp] theorem toList_lower (s : String) : (lower s).toList = lowerChars s.toList :=
  String.toList_ofList

/-- Trimming leaves nothing of blanks, and only of them. -/
theorem trimChars_eq_nil_iff {cs : List Char} : trimChars cs = [] ↔ cs.all isBlank = true := by
  rw [trimChars, List.reverse_eq_nil_iff, List.dropWhile_eq_nil_iff, List.all_eq_true]
  constructor
  · intro h
    rw [← List.dropWhile_eq_nil_iff]
    by_contra hne
    have hhead := List.head_dropWhile_not isBlank hne
    rw [h _ (List.mem_reverse.2 (List.head_mem hne))] at hhead
    cases hhead
  · intro h c hc
    exact h c ((List.dropWhile_sublist isBlank).subset (List.mem_reverse.1 hc))

theorem isBlankText_eq (s : String) : isBlankText s = (keyword s == "") := by
  rw [Bool.eq_iff_iff, beq_iff_eq, isBlankText, ← trimChars_eq_nil_iff, keyword, lower,
    String.ofList_eq_empty_iff]
  simp [lowerChars, trim]

theorem sameLetters_trim (s t : String) :
    sameLetters (trim s) (trim t) = (keyword s == keyword t) := by
  rw [Bool.eq_iff_iff, sameLetters, beq_iff_eq, beq_iff_eq, keyword, keyword, lower, lower,
    String.ofList_inj]

end Text

/-! ### Numbers in either case

Reading a number splits its text at characters that are no letters, so lower case can be taken
before or after each split. The one letter that a number may hold, the mark of its exponent, is
looked for in both cases. -/

namespace Number
open Text

theorem isAlpha_of_isDigit {c : Char} (h : isDigit c = true) : c.isAlpha = false := by
  simp only [isDigit, Bool.and_eq_true, decide_eq_true_eq, Char.le_def,
    UInt32.le_iff_toNat_le] at h
  obtain ⟨-, hhigh : c.val.toNat ≤ 57⟩ := h
  simp only [Char.isAlpha, Char.isUpper, Char.isLower, Bool.or_eq_false_iff, Bool.and_eq_false_iff,
    decide_eq_false_iff_not, ge_iff_le, UInt32.le_iff_toNat_le]
  exact ⟨fun hupper => absurd hupper.1 (show ¬ 65 ≤ c.val.toNat by omega),
    .inl (show ¬ 97 ≤ c.val.toNat by omega)⟩

theorem isDigit_toLower (c : Char) : isDigit c.toLower = isDigit c := by
  cases h : c.isAlpha with
  | false => rw [toLower_of_not_isAlpha h]
  | true =>
    have hnot {d : Char} (hd : d.isAlpha = true) : isDigit d = false := by
      refine Bool.eq_false_iff.2 fun hdigit => ?_
      exact Bool.false_ne_true ((isAlpha_of_isDigit hdigit).symm.trans hd)
    rw [hnot h, hnot ((Char.isAlpha_toLower_eq_isAlpha c).trans h)]

/-- No other character turns into the mark of an exponent. -/
theorem toLower_eq_e_iff (c : Char) : c.toLower = 'e' ∨ c.toLower = 'E' ↔ c = 'e' ∨ c = 'E' := by
  constructor
  · rintro (h | h)
    · have hupper : c.toUpper = 'E' := by rw [← Char.toUpper_toLower_eq_toUpper, h]; rfl
      by_cases hlow : c.isLower = true
      · rw [← h, Char.toLower_eq_of_not_isUpper (Char.not_isUpper_of_isLower hlow)]
        exact .inl rfl
      · rw [Char.toUpper_eq_of_not_isLower hlow] at hupper
        exact .inr hupper
    · have hnot := Char.isUpper_toLower_eq_false c
      rw [h] at hnot
      cases hnot
  · rintro (rfl | rfl)
    · exact .inl rfl
    · exact .inl rfl

theorem lowerChars_of_all_isDigit {cs : List Char} (h : cs.all isDigit = true) :
    lowerChars cs = cs := by
  rw [List.all_eq_true] at h
  exact (List.map_congr_left fun c hc => toLower_of_not_isAlpha (isAlpha_of_isDigit (h c hc))).trans
    (List.map_id' cs)

theorem splitSign_cons_of_ne {c : Char} (hminus : c ≠ '-') (hplus : c ≠ '+') (rest : List Char) :
    splitSign (c :: rest) = (false, c :: rest) := by
  unfold splitSign
  split <;> simp_all

theorem splitSign_lowerChars (cs : List Char) :
    splitSign (lowerChars cs) = ((splitSign cs).1, lowerChars (splitSign cs).2) := by
  cases cs with
  | nil => rfl
  | cons c rest =>
    by_cases hminus : c = '-'
    · subst hminus
      rfl
    · by_cases hplus : c = '+'
      · subst hplus
        rfl
      · rw [splitSign_cons_of_ne hminus hplus]
        exact splitSign_cons_of_ne (mt (toLower_eq_iff (by decide)).1 hminus)
          (mt (toLower_eq_iff (by decide)).1 hplus) (lowerChars rest)

theorem all_isDigit_lowerChars (cs : List Char) : (lowerChars cs).all isDigit = cs.all isDigit := by
  rw [lowerChars, List.all_map]
  exact congrArg cs.all (funext isDigit_toLower)

theorem exponent?_lowerChars (cs : List Char) : exponent? (lowerChars cs) = exponent? cs := by
  cases cs with
  | nil => rfl
  | cons c rest =>
    show exponent? (c.toLower :: lowerChars rest) = _
    have hnil : lowerChars (splitSign rest).2 ≠ [] ↔ (splitSign rest).2 ≠ [] :=
      not_congr List.map_eq_nil_iff
    simp only [exponent?, splitSign_lowerChars, toLower_eq_e_iff, hnil, all_isDigit_lowerChars]
    -- Where the digits are none, there is no exponent to read in either case.
    by_cases hdigits : (splitSign rest).2.all isDigit = true
    · rw [lowerChars_of_all_isDigit hdigits]
    · rw [if_neg fun h => hdigits h.2.2, if_neg fun h => hdigits h.2.2]

theorem takeWhile_lowerChars (cs : List Char) :
    (lowerChars cs).takeWhile isDigit = cs.takeWhile isDigit := by
  have hdigits : (cs.takeWhile isDigit).all isDigit = true :=
    List.all_eq_true.2 fun c hc => List.mem_takeWhile_imp hc
  rw [lowerChars, List.takeWhile_map, Function.comp_def, funext isDigit_toLower]
  exact lowerChars_of_all_isDigit hdigits

theorem dropWhile_lowerChars (cs : List Char) :
    (lowerChars cs).dropWhile isDigit = lowerChars (cs.dropWhile isDigit) := by
  rw [lowerChars, List.dropWhile_map, Function.comp_def, funext isDigit_toLower, lowerChars]

theorem decimal?_lowerChars (cs : List Char) : decimal? (lowerChars cs) = decimal? cs := by
  unfold decimal?
  rw [takeWhile_lowerChars, dropWhile_lowerChars]
  -- What follows the digits is a point, an exponent or nothing that belongs to a number.
  cases cs.dropWhile isDigit with
  | nil => rfl
  | cons c rest =>
    by_cases hpoint : c = '.'
    · subst hpoint
      have hcons : lowerChars ('.' :: rest) = '.' :: lowerChars rest := rfl
      simp only [hcons, takeWhile_lowerChars, dropWhile_lowerChars, exponent?_lowerChars]
    · have hpoint' : c.toLower ≠ '.' := mt (toLower_eq_iff (by decide)).1 hpoint
      have hcons : lowerChars (c :: rest) = c.toLower :: lowerChars rest := rfl
      have hlower := exponent?_lowerChars (c :: rest)
      rw [hcons] at hlower ⊢
      simp [hpoint, hpoint', hlower]

theorem magnitude?_lowerChars (cs : List Char) : magnitude? (lowerChars cs) = magnitude? cs := by
  have hword : (lowerChars cs).map Char.toLower = cs.map Char.toLower := lowerChars_lowerChars cs
  rw [magnitude?, magnitude?, hword, decimal?_lowerChars]

/-- **The case of letters says nothing about the number that a text stands for.** -/
theorem ofText?_lower (s : String) : ofText? (lower s) = ofText? s := by
  simp only [ofText?, toList_lower, splitSign_lowerChars, magnitude?_lowerChars]

end Number

/-! ### Texts as values -/

namespace Value

theorem number?_text (s : String) :
    (Value.text s).number? = (Number.ofText? (Text.keyword s)).filter Float.isFinite := by
  rw [number?, Text.keyword, Number.ofText?_lower]

theorem isMissing_text (s : String) : (Value.text s).isMissing = (Text.keyword s == "") :=
  Text.isBlankText_eq s

end Value

end Lending
