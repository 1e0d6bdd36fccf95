import Lending.Number
import Mathlib

/-! Packing.

A double is kept as a sign, an exponent field and a mantissa field, and taken apart again to be
computed with. The parts are read back as they were written (`unpack_packComponents`), and so is a
number whose mantissa has all its bits (`unpack_pack`). -/
namespace Lending.Number
open Float.Model Float.Model.UnpackedFloat Float.Model.Format

/-! ### Parts of a double -/

theorem ofBitVec_unpackSign_packComponents (s : Sign) (e : BitVec 11) (m : BitVec 52) :
    Sign.ofBitVec (unpackSign (packComponents binary64 s e m)) = s := by
  have hsign : unpackSign (packComponents binary64 s e m) = s.toBitVec := by
    apply BitVec.eq_of_getLsbD_eq
    intro i hi
    obtain rfl : i = 0 := by omega
    show ((s.toBitVec ++ e ++ m).extractLsb' 63 1).getLsbD 0 = s.toBitVec.getLsbD 0
    rw [BitVec.getLsbD_extractLsb', BitVec.getLsbD_append, BitVec.getLsbD_append]
    simp
  rw [hsign]
  cases s <;> rfl

theorem toNat_one_append (m : BitVec 52) : (1#1 ++ m).toNat = 2 ^ 52 + m.toNat := by
  rw [BitVec.toNat_append, ← Nat.shiftLeft_add_eq_or_of_lt m.isLt]
  rfl

/-- What is packed is read back part by part. -/
theorem unpack_packComponents (s : Sign) (e : BitVec 11) (m : BitVec 52) :
    UnpackedFloat.unpack binary64 (packComponents binary64 s e m) =
      if e = -1#11 then (if m = 0#52 then .infinity s else .notANumber)
      else if e = 0#11 then
        if h : m = 0#52 then .zero s
        else .finite s m.toNat (-1074) (Nat.pos_of_ne_zero fun h0 => h (BitVec.eq_of_toNat_eq h0))
      else .finite s (2 ^ 52 + m.toNat) (e.toNat - 1075) (by omega) := by
  rw [UnpackedFloat.unpack]
  simp only [unpackMantissa_packComponents, unpackExponent_packComponents,
    ofBitVec_unpackSign_packComponents]
  split
  · rfl
  · split
    · next hzero =>
      subst hzero
      rfl
    · congr 1
      exact toNat_one_append m

/-! ### Numbers -/

/-- The exponent field of a finite double. -/
theorem toNat_exponent {biased : ℕ} (h : biased < 2047) :
    (BitVec.ofNat 11 biased).toNat = biased ∧ BitVec.ofNat 11 biased ≠ -1#11 := by
  have htoNat : (BitVec.ofNat 11 biased).toNat = biased := by
    rw [BitVec.toNat_ofNat]
    omega
  refine ⟨htoNat, fun htop => ?_⟩
  rw [htop] at htoNat
  have : (-1#11 : BitVec 11).toNat = 2047 := rfl
  omega

theorem pack_finite {s : Sign} {m : ℕ} {e : ℤ} (hm : 0 < m) :
    UnpackedFloat.pack binary64 (.finite s m e hm) =
      if 2048 ≤ (e + 1075).toNat + 1 then packedInfinity binary64 s
      else if m.log2 + 1 = 53 then
        packComponents binary64 s (BitVec.ofNat 11 (e + 1075).toNat) (BitVec.ofNat 52 m)
      else packComponents binary64 s 0#11 (BitVec.ofNat 52 m) := by
  have hbiased : e + 1075 = e + 1023 + 52 := by omega
  rw [hbiased]
  rfl

/-- **A number of full precision is read back as it was packed.** -/
theorem unpack_pack {s : Sign} {m : ℕ} {e : ℤ} (hm : 0 < m) (hlog : m.log2 = 52)
    (hlow : -1074 ≤ e) (hhigh : e ≤ 971) :
    UnpackedFloat.unpack binary64 (UnpackedFloat.pack binary64 (.finite s m e hm)) =
      .finite s m e hm := by
  have hbiased : (e + 1075).toNat < 2047 := by omega
  obtain ⟨htoNat, htop⟩ := toNat_exponent hbiased
  have hzero : BitVec.ofNat 11 (e + 1075).toNat ≠ 0#11 := by
    intro hnil
    rw [hnil] at htoNat
    have : (0#11 : BitVec 11).toNat = 0 := rfl
    omega
  obtain ⟨hle, hlt⟩ := (Nat.log2_eq_iff (Nat.ne_of_gt hm)).1 hlog
  rw [pack_finite, if_neg (by omega), if_pos (by omega), unpack_packComponents, if_neg htop,
    if_neg hzero, UnpackedFloat.finite.injEq, htoNat, BitVec.toNat_ofNat]
  exact ⟨rfl, by omega, by omega⟩

end Lending.Number
