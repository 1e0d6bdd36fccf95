import Lending.Proofs.Number.Difference
import Lending.Record

/-! Counts as numbers.

A count is kept as a whole number of 32 bits and compared as a double. A whole number of so few bits
is a double as it is: nothing is rounded off on the way there (`units_toFloat`) or back
(`toNat_toUInt32`). So a double is taken for a count if it equals one (`count?_eq_some_iff`). -/
namespace Lending.Number
open Float.Model Float.Model.UnpackedFloat Float.Model.Format

/-! ### From counts -/

/-- A number of full precision is not rounded. -/
theorem roundWithAccuracy_exact {s : Sign} {m : ℕ} {e : ℤ} (hm : 0 < m) (hlog : m.log2 = 52)
    (he : -1074 ≤ e) : roundWithAccuracy binary64 s m e .exact = .finite s m e hm := by
  have htarget : binary64.targetExponent (totalExponent m e) = e := by
    simp only [Format.targetExponent, totalExponent, Format.mantissaBits, Format.minExponent, hlog]
    omega
  have hshift : shiftToTargetExponent binary64 m e .exact =
      (ExtendedMantissa.ofMantissaAndAccuracy m .exact, e) := by
    rw [shiftToTargetExponent, htarget, shiftToExponent, Int.sub_self]
    exact Prod.ext rfl (Int.add_zero e)
  have hrounded : (ExtendedMantissa.ofMantissaAndAccuracy m .exact).roundedMantissa = m := rfl
  simp only [roundWithAccuracy, hshift, hrounded, mantissa_ofMantissaAndAccuracy,
    dif_neg (Nat.ne_of_gt hm)]

/-- A positive count is shifted until it has full precision. -/
theorem unpack_toFloat {n : UInt32} (h : 0 < n.toNat) : ∃ k ≤ 52, ∃ hm : 0 < n.toNat <<< k,
    n.toFloat.toModel.unpack = .finite .positive (n.toNat <<< k) (-k) hm := by
  have hne := Nat.ne_of_gt h
  have hbits : n.toNat.log2 < 32 := (Nat.log2_lt hne).2 n.toNat_lt
  let k := 52 - n.toNat.log2
  have hlog : (n.toNat <<< k).log2 = 52 := by
    rw [log2_shiftLeft hne]
    omega
  have hm : 0 < n.toNat <<< k := by
    rw [Nat.shiftLeft_eq]
    exact Nat.mul_pos h (Nat.two_pow_pos k)
  have htarget : binary64.targetExponent (totalExponent n.toNat 0) = -(k : ℤ) := by
    simp only [Format.targetExponent, totalExponent, Format.mantissaBits, Format.minExponent]
    omega
  have hround : UnpackedFloat.ofUInt32 binary64 n =
      .finite .positive (n.toNat <<< k) (-k) hm := by
    rw [UnpackedFloat.ofUInt32, UnpackedFloat.ofNat, UnpackedFloat.ofInt, UnpackedFloat.normalize,
      Int.compare_eq_gt.2 (by omega)]
    show UnpackedFloat.round binary64 .positive n.toNat 0 = _
    rw [UnpackedFloat.round, htarget, decreaseExponent]
    rw [show ((0 : ℤ) - -(k : ℤ)).toNat = k by omega, show (0 : ℤ) - k = -k by omega]
    exact roundWithAccuracy_exact hm hlog (by omega)
  refine ⟨k, by omega, hm, ?_⟩
  show UnpackedFloat.unpack binary64 (UnpackedFloat.pack binary64
    (UnpackedFloat.ofUInt32 binary64 n)) = _
  rw [hround]
  exact unpack_pack hm hlog (by omega) (by omega)

/-- **A count as a number is the count.** -/
theorem units_toFloat (n : UInt32) :
    n.toFloat.isFinite = true ∧ units n.toFloat = (n.toNat * oneUnits : ℕ) := by
  by_cases hzero : n.toNat = 0
  · obtain rfl : n = 0 := UInt32.toNat_inj.1 hzero
    exact ⟨by decide +kernel, by decide +kernel⟩
  · obtain ⟨k, hk, hm, hunpack⟩ := unpack_toFloat (Nat.pos_of_ne_zero hzero)
    constructor
    · show n.toFloat.toModel.unpack.isFinite = true
      rw [hunpack]
      rfl
    · rw [units, hunpack, unitsOf, Nat.shiftLeft_eq, Nat.mul_assoc, ← Nat.pow_add,
        show k + (-(k : ℤ) + 1074).toNat = 1074 by omega]
      rfl

/-! ### To counts -/

/-- Cutting a number to a whole one. -/
theorem roundToInt_eq (s : Sign) (m : ℕ) (e : ℤ) :
    roundToInt s m e = s.apply (m * 2 ^ e.toNat / 2 ^ (-e).toNat : ℕ) := by
  rw [roundToInt, decreaseExponent, Int.sub_zero]
  show s.apply ((ExtendedMantissa.ofMantissaAndAccuracy (m <<< e.toNat) .exact >>>
    (0 - (e - e.toNat)).toNat).mantissa : ℕ) = _
  rw [mantissa_shiftRight, mantissa_ofMantissaAndAccuracy, Nat.shiftLeft_eq,
    show (0 - (e - (e.toNat : ℤ))).toNat = (-e).toNat by omega]

/-- Of a whole multiple of a power of two, cutting leaves how often it is taken. -/
theorem cut_of_units {m n k : ℕ} {e : ℤ} (he : -k ≤ e)
    (h : m * 2 ^ (e + k).toNat = n * 2 ^ k) : m * 2 ^ e.toNat / 2 ^ (-e).toNat = n := by
  by_cases hsign : 0 ≤ e
  · rw [show (e + k).toNat = e.toNat + k by omega, Nat.pow_add, ← Nat.mul_assoc] at h
    rw [show (-e).toNat = 0 by omega, Nat.pow_zero, Nat.div_one]
    exact Nat.mul_right_cancel (Nat.two_pow_pos k) h
  · obtain ⟨j, rfl⟩ : ∃ j : ℕ, e = -j := ⟨(-e).toNat, by omega⟩
    rw [show (-(j : ℤ) + k).toNat = k - j by omega, show k = j + (k - j) by omega, Nat.pow_add,
      ← Nat.mul_assoc, show j + (k - j) - j = k - j by omega] at h
    have hm := Nat.mul_right_cancel (Nat.two_pow_pos _) h
    rw [show (-(j : ℤ)).toNat = 0 by omega, show (- -(j : ℤ)).toNat = j by omega, Nat.pow_zero,
      Nat.mul_one, hm]
    exact Nat.mul_div_cancel _ (Nat.two_pow_pos j)

/-- **A double that equals a count is cut to that count.** -/
theorem toUInt32_of_units {x : Float} {n : UInt32} (hx : x.isFinite = true)
    (h : units x = (n.toNat * oneUnits : ℕ)) : x.toUInt32 = n := by
  have hsize : n.toNat < UInt32.size := n.toNat_lt
  have hint : UnpackedFloat.toInt 0 (UInt32.size - 1) x.toModel.unpack = n.toNat := by
    rw [units] at h
    rcases unpack_of_finite hx with ⟨-, hunpack⟩ | ⟨hpos, hunpack⟩
    · rw [hunpack] at h ⊢
      have hzero := (Nat.mul_eq_zero.1 (Int.natCast_inj.1 h).symm).resolve_right oneUnits_pos.ne'
      exact (congrArg Nat.cast hzero).symm
    · have hunits : 0 < significand x * 2 ^ (scale x + 1074).toNat :=
        Nat.mul_pos hpos (Nat.two_pow_pos _)
      rw [hunpack, unitsOf] at h
      rw [hunpack, UnpackedFloat.toInt, roundToInt_eq]
      cases hsign : signOf x with
      | negative =>
        -- A count is not negative.
        have hnegative : -((significand x * 2 ^ (scale x + 1074).toNat : ℕ) : ℤ) =
            (n.toNat * oneUnits : ℕ) := by rwa [hsign] at h
        omega
      | positive =>
        rw [hsign] at h
        exact congrArg Nat.cast (cut_of_units (le_scale x) (Int.natCast_inj.1 h))
  show UInt32.ofNatClamp (UnpackedFloat.toInt 0 (UInt32.size - 1) x.toModel.unpack).toNat = n
  rw [hint, Int.toNat_natCast, UInt32.ofNatClamp, dif_pos hsize]
  exact UInt32.toNat_inj.1 rfl

theorem pow_dvd_iff {m k : ℕ} {e : ℤ} (he : -k ≤ e) :
    2 ^ k ∣ m * 2 ^ (e + k).toNat ↔ 0 ≤ e ∨ m % 2 ^ (-e).toNat = 0 := by
  by_cases hsign : 0 ≤ e
  · rw [show (e + k).toNat = e.toNat + k by omega, Nat.pow_add, ← Nat.mul_assoc]
    exact iff_of_true (Nat.dvd_mul_left ..) (.inl hsign)
  · obtain ⟨j, rfl⟩ : ∃ j : ℕ, e = -j := ⟨(-e).toNat, by omega⟩
    obtain ⟨i, rfl⟩ : ∃ i : ℕ, k = j + i := ⟨k - j, by omega⟩
    rw [show (-(j : ℤ) + (j + i : ℕ)).toNat = i by omega, show (- -(j : ℤ)).toNat = j by omega,
      Nat.pow_add, Nat.mul_dvd_mul_iff_right (Nat.two_pow_pos i), Nat.dvd_iff_mod_eq_zero,
      or_iff_right hsign]

/-- A whole number is a multiple of the units of one. -/
theorem isWhole_iff_units {x : Float} (hx : x.isFinite = true) :
    isWhole x = true ↔ (oneUnits : ℤ) ∣ units x := by
  have hmagnitude : (oneUnits : ℤ) ∣ units x ↔ oneUnits ∣ magnitudeUnits x := by
    rw [← Int.natCast_dvd_natCast, units_eq hx]
    split
    · exact Int.dvd_neg
    · rfl
  rw [hmagnitude, magnitudeUnits]
  refine Iff.trans ?_ (pow_dvd_iff (le_scale x)).symm
  simp [isWhole, hx]

/-! ### Doubles that are counts -/

theorem units_zero : (0 : Float).isFinite = true ∧ units 0 = 0 :=
  ⟨by decide +kernel, rfl⟩

/-- The largest count. -/
theorem units_largest : (4294967295 : Float).isFinite = true ∧
    units 4294967295 = (4294967295 * oneUnits : ℕ) :=
  ⟨by decide +kernel, by decide +kernel⟩

/-- The whole numbers in the range of counts are the counts. -/
theorem inRange_iff {x : Float} (hx : x.isFinite = true) :
    (0 ≤ x ∧ isWhole x = true ∧ x ≤ 4294967295) ↔
      ∃ n : UInt32, units x = (n.toNat * oneUnits : ℕ) := by
  obtain ⟨hzero, hnone⟩ := units_zero
  obtain ⟨hmax, hlargest⟩ := units_largest
  rw [le_iff_units hzero hx, le_iff_units hx hmax, isWhole_iff_units hx, hnone, hlargest]
  constructor
  · rintro ⟨hlow, ⟨z, hz⟩, hhigh⟩
    rw [hz] at hlow hhigh
    obtain ⟨m, rfl⟩ := Int.eq_ofNat_of_zero_le
      (Int.nonneg_of_mul_nonneg_right hlow (Int.natCast_pos.2 oneUnits_pos))
    have hm : m ≤ 4294967295 := by
      rw [Int.mul_comm, ← Int.natCast_mul, Int.ofNat_le] at hhigh
      exact Nat.le_of_mul_le_mul_right hhigh oneUnits_pos
    refine ⟨UInt32.ofNat m, ?_⟩
    rw [UInt32.toNat_ofNat_of_lt' (Nat.lt_succ_of_le hm), hz, Int.mul_comm, Int.natCast_mul]
  · rintro ⟨n, hn⟩
    have hle : n.toNat ≤ 4294967295 := Nat.le_of_lt_succ n.toNat_lt
    rw [hn]
    exact ⟨Int.natCast_nonneg _, Int.natCast_dvd_natCast.2 (Nat.dvd_mul_left ..),
      Int.ofNat_le.2 (Nat.mul_le_mul_right _ hle)⟩

/-- **A double is taken for the count that it equals**, and for none if it equals none. -/
theorem count?_eq_some_iff {x : Float} {n : UInt32} :
    Kind.count? x = some n ↔ x.isFinite = true ∧ (x == n.toFloat) = true := by
  obtain ⟨hn, hunits⟩ := units_toFloat n
  unfold Kind.count?
  constructor
  · intro h
    split at h
    case isTrue hrange =>
      have hx : x.isFinite = true := (Bool.and_eq_true_iff.1 hrange.2.1).1
      obtain ⟨m, hm⟩ := (inRange_iff hx).1 hrange
      obtain rfl : m = n := (toUInt32_of_units hx hm).symm.trans (Option.some.inj h)
      exact ⟨hx, (beq_iff_units hx hn).2 (hm.trans hunits.symm)⟩
    case isFalse => cases h
  · rintro ⟨hx, hbeq⟩
    rw [beq_iff_units hx hn, hunits] at hbeq
    rw [if_pos ((inRange_iff hx).2 ⟨n, hbeq⟩), toUInt32_of_units hx hbeq]

/-- A count that was made a number is taken for that count. -/
theorem count?_toFloat (n : UInt32) : Kind.count? n.toFloat = some n := by
  obtain ⟨hn, -⟩ := units_toFloat n
  exact count?_eq_some_iff.2 ⟨hn, (beq_iff_units hn hn).2 rfl⟩

end Lending.Number
