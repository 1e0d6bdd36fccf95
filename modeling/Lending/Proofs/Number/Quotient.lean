import Lending.Proofs.Number.Packing

/-! Quotients of counts.

Reports give shares as quotients of counts. A count becomes the float next to it, which for a
positive count is a number of full precision: its mantissa has 53 bits, and its exponent lies far
inside the range of doubles, so that rounding can only drop bits, or carry into one more. Such a
number divided by itself is one. -/
namespace Lending.Number
open Float.Model Float.Model.UnpackedFloat Float.Model.Format

/-! ### Rounding numbers that are long enough -/

theorem mantissa_shiftRight (em : ExtendedMantissa) (k : Nat) :
    (em >>> k).mantissa = em.mantissa / 2 ^ k := by
  induction k with
  | zero => exact (Nat.div_one _).symm
  | succ k ih =>
    show (em >>> k).mantissa / 2 = _
    rw [ih, Nat.div_div_eq_div_mul, Nat.pow_succ]

theorem mantissa_ofMantissaAndAccuracy (m : Nat) (a : Accuracy) :
    (ExtendedMantissa.ofMantissaAndAccuracy m a).mantissa = m := by
  cases a with
  | exact => rfl
  | inexact o => cases o <;> rfl

theorem log2_div_two_pow {m k : Nat} (hm : m.log2 = 52 + k) : (m / 2 ^ k).log2 = 52 := by
  have hpos : m ≠ 0 := by
    rintro rfl
    rw [Nat.log2_zero] at hm
    omega
  obtain ⟨hlow, hhigh⟩ := (Nat.log2_eq_iff hpos).1 hm
  have hlow' : 2 ^ 52 ≤ m / 2 ^ k := by
    rw [Nat.le_div_iff_mul_le (Nat.two_pow_pos k), ← Nat.pow_add]
    exact hlow
  have hhigh' : m / 2 ^ k < 2 ^ 53 := by
    rw [Nat.div_lt_iff_lt_mul (Nat.two_pow_pos k), ← Nat.pow_add]
    rwa [show 53 + k = 52 + k + 1 by omega]
  exact (Nat.log2_eq_iff (by omega)).2 ⟨hlow', hhigh'⟩

/-- A mantissa of 53 bits or more is cut to 53, and the exponent makes up for it. -/
theorem shiftToTargetExponent_long {m k : Nat} {e : Int} (hm : m.log2 = 52 + k) (he : -1074 ≤ e)
    (a : Accuracy) : ∃ em, shiftToTargetExponent binary64 m e a = (em, e + k) ∧
      em.mantissa.log2 = 52 := by
  have htarget : binary64.targetExponent (totalExponent m e) = e + k := by
    simp only [Format.targetExponent, totalExponent, Format.mantissaBits, Format.minExponent, hm]
    omega
  refine ⟨ExtendedMantissa.ofMantissaAndAccuracy m a >>> k, ?_, ?_⟩
  · rw [shiftToTargetExponent, htarget, shiftToExponent, show (e + k - e).toNat = k by omega]
  · rw [mantissa_shiftRight, mantissa_ofMantissaAndAccuracy]
    exact log2_div_two_pow hm

theorem roundedMantissa_bounds (em : ExtendedMantissa) :
    em.mantissa ≤ em.roundedMantissa ∧ em.roundedMantissa ≤ em.mantissa + 1 := by
  unfold ExtendedMantissa.roundedMantissa
  cases em.accuracy with
  | exact => exact ⟨Nat.le_refl _, Nat.le_succ _⟩
  | inexact o =>
    cases o <;> simp only [Accuracy.roundToNearestEven] <;> omega

/-- Rounding up carries into one more bit at most. -/
theorem log2_roundedMantissa {em : ExtendedMantissa} (h : em.mantissa.log2 = 52) :
    em.roundedMantissa.log2 = 52 ∨ em.roundedMantissa.log2 = 53 := by
  have hpos : em.mantissa ≠ 0 := by
    intro hzero
    rw [hzero, Nat.log2_zero] at h
    omega
  obtain ⟨hlow, hhigh⟩ := (Nat.log2_eq_iff hpos).1 h
  obtain ⟨hge, hle⟩ := roundedMantissa_bounds em
  by_cases hcarry : em.roundedMantissa < 2 ^ 53
  · exact .inl ((Nat.log2_eq_iff (by omega)).2 ⟨by omega, hcarry⟩)
  · exact .inr ((Nat.log2_eq_iff (by omega)).2 ⟨by omega, by omega⟩)

/-- A number of full precision, far inside the range. -/
def Full (u : UnpackedFloat) : Prop :=
  ∃ s m e, ∃ h : 0 < m, u = .finite s m e h ∧ m.log2 = 52 ∧ -1074 ≤ e ∧ e ≤ 970

theorem roundWithAccuracy_full {s : Sign} {m k : Nat} {e : Int} (hm : m.log2 = 52 + k)
    (hlow : -1074 ≤ e) (hhigh : e + k ≤ 969) (a : Accuracy) :
    Full (roundWithAccuracy binary64 s m e a) := by
  obtain ⟨em, hfirst, hlog⟩ := shiftToTargetExponent_long hm hlow a
  obtain ⟨carry, hcarry, hcarry_le⟩ :
      ∃ carry, em.roundedMantissa.log2 = 52 + carry ∧ carry ≤ 1 := by
    rcases log2_roundedMantissa hlog with h | h
    · exact ⟨0, h, Nat.zero_le _⟩
    · exact ⟨1, h, Nat.le_refl _⟩
  obtain ⟨em', hsecond, hlog'⟩ :=
    shiftToTargetExponent_long (e := e + k) hcarry (by omega) .exact
  have hpos : em'.mantissa ≠ 0 := by
    intro hzero
    rw [hzero, Nat.log2_zero] at hlog'
    omega
  refine ⟨s, em'.mantissa, e + k + carry, Nat.pos_of_ne_zero hpos, ?_, hlog', by omega, by omega⟩
  simp only [roundWithAccuracy, hfirst, hsecond, dif_neg hpos]

theorem log2_shiftLeft {n : Nat} (hn : n ≠ 0) (k : Nat) : (n <<< k).log2 = n.log2 + k := by
  induction k with
  | zero => rfl
  | succ k ih =>
    have hpos : n <<< k ≠ 0 := by
      rw [Nat.shiftLeft_eq]
      exact Nat.mul_ne_zero hn (Nat.ne_of_gt (Nat.two_pow_pos k))
    rw [Nat.shiftLeft_succ, Nat.log2_two_mul hpos, ih, Nat.add_assoc]

/-- The numbers next to positive counts. -/
theorem round_full {n : Nat} (hpos : 0 < n) (hn : n < 2 ^ 64) :
    Full (UnpackedFloat.round binary64 .positive n 0) := by
  have hlog : n.log2 < 64 := (Nat.log2_lt (Nat.ne_of_gt hpos)).2 hn
  have htarget : binary64.targetExponent (totalExponent n 0) = (n.log2 : Int) - 52 := by
    simp only [Format.targetExponent, totalExponent, Format.mantissaBits, Format.minExponent]
    omega
  have hshift : (n <<< (52 - n.log2)).log2 = 52 + (n.log2 - 52) := by
    rw [log2_shiftLeft (Nat.ne_of_gt hpos)]
    omega
  rw [UnpackedFloat.round, htarget, decreaseExponent]
  rw [show ((0 : Int) - ((n.log2 : Int) - 52)).toNat = 52 - n.log2 by omega]
  exact roundWithAccuracy_full hshift (by omega) (by omega) .exact

/-! ### Packing -/

/-- A number other than zero. -/
def IsProper : UnpackedFloat → Prop
  | .finite _ _ _ _ => True
  | _ => False

/-- Numbers of full precision are read back as numbers. -/
theorem isProper_unpack_pack {u : UnpackedFloat} (hu : Full u) :
    IsProper (UnpackedFloat.unpack binary64 (UnpackedFloat.pack binary64 u)) := by
  obtain ⟨s, m, e, hpos, rfl, hlog, hlow, hhigh⟩ := hu
  rw [unpack_pack hpos hlog hlow (by omega)]
  trivial

/-! ### Division -/

/-- A mantissa divides itself without rest. -/
theorem div_self_of_isProper {u : UnpackedFloat} (h : IsProper u) :
    UnpackedFloat.div binary64 u u =
      roundWithAccuracy binary64 .positive (2 ^ 53) (-53) .exact := by
  cases u with
  | finite s m e hpos =>
    have htarget : min (e - e) (binary64.targetExponent (totalExponent m e - totalExponent m e)) =
        -53 := by
      rw [Int.sub_self, Int.sub_self]
      rfl
    have hsign : s / s = Sign.positive := by cases s <;> rfl
    have hquotient : m <<< 53 / m = 2 ^ 53 := by
      rw [Nat.shiftLeft_eq, Nat.mul_div_cancel_left _ hpos]
    have hrest : m <<< 53 % m = 0 := by
      rw [Nat.shiftLeft_eq, Nat.mul_mod_right]
    simp only [UnpackedFloat.div, divCore, htarget, hsign]
    rw [show (e - e - -53).toNat = 53 by omega, hquotient, hrest]
    rfl
  | zero s => cases h
  | infinity s => cases h
  | notANumber => cases h

theorem one_eq : (1 : Float) =
    .ofModel (Float.Model.pack (roundWithAccuracy binary64 .positive (2 ^ 53) (-53) .exact)) :=
  rfl

theorem ofUInt64_full {n : UInt64} (h : 0 < n.toNat) :
    Full (UnpackedFloat.ofUInt64 binary64 n) := by
  have hround : UnpackedFloat.ofUInt64 binary64 n =
      UnpackedFloat.round binary64 .positive n.toNat 0 := by
    rw [UnpackedFloat.ofUInt64, UnpackedFloat.ofNat, UnpackedFloat.ofInt, UnpackedFloat.normalize,
      Int.compare_eq_gt.2 (by omega)]
    rfl
  rw [hround]
  exact round_full h n.toNat_lt

/-- **A positive count divided by itself is one.** -/
theorem toFloat_div_self {n : UInt64} (h : 0 < n.toNat) : n.toFloat / n.toFloat = 1 := by
  have hproper : IsProper (Float.Model.ofUInt64 n).unpack := isProper_unpack_pack (ofUInt64_full h)
  show Float.ofModel (Float.Model.pack (UnpackedFloat.div binary64 (Float.Model.ofUInt64 n).unpack
    (Float.Model.ofUInt64 n).unpack)) = 1
  rw [div_self_of_isProper hproper, one_eq]

end Lending.Number
