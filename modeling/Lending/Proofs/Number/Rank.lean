import Mathlib.Algebra.Group.Nat.Defs
import Lending.Number
import Lending.Proofs.Number.Order

/-! The ranks of numbers.

The rank of a double orders all of them by their bits, where a comparison goes by place. A finite
double is made of a sign, a significand and a scale (`unpack_of_finite`), and reading these off the
bits shows that a lower rank is no higher place (`le_of_rank_le`). The converse fails for the two
zeros alone, which share a place: ranks are all different (`rank_injective`). -/
namespace Lending.Number
open Float.Model Float.Model.UnpackedFloat Float.Model.Format

/-! ### The parts of the bits -/

/-- The bits below the sign. -/
def magnitudeBits (x : Float) : ℕ :=
  x.toBits.toNat % 2 ^ 63

theorem magnitudeBits_eq (x : Float) :
    magnitudeBits x = exponentField x * 2 ^ 52 + fraction x := by
  show x.toBits.toNat % 2 ^ 63 =
    x.toBits.toNat / 2 ^ 52 % 2 ^ 11 * 2 ^ 52 + x.toBits.toNat % 2 ^ 52
  omega

theorem fraction_lt (x : Float) : fraction x < 2 ^ 52 :=
  Nat.mod_lt _ (Nat.two_pow_pos 52)

theorem isNegative_iff (x : Float) : isNegative x = true ↔ x.toBits.toNat / 2 ^ 63 = 1 := by
  rw [isNegative, beq_iff_eq, ← UInt64.toNat_inj]
  show x.toBits.toNat >>> 63 = 1 ↔ _
  rw [Nat.shiftRight_eq_div_pow]

theorem rank_eq (x : Float) : rank x =
    if isNegative x then -(magnitudeBits x : ℤ) - 1 else magnitudeBits x := by
  have hlt := x.toBits.toNat_lt
  by_cases h : isNegative x = true
  · rw [rank, if_pos h, if_pos h]
    rfl
  · have hsign := mt (isNegative_iff x).2 h
    rw [rank, if_neg h, if_neg h]
    show (x.toBits.toNat : ℤ) = (x.toBits.toNat % 2 ^ 63 : ℕ)
    omega

/-- **No two doubles have one rank.** -/
theorem rank_injective {x y : Float} (h : rank x = rank y) : x = y := by
  have hbits : x.toBits.toNat = y.toBits.toNat := by
    have hx := isNegative_iff x
    have hy := isNegative_iff y
    have hltx := x.toBits.toNat_lt
    have hlty := y.toBits.toNat_lt
    rw [rank_eq, rank_eq] at h
    unfold magnitudeBits at h
    split at h <;> split at h <;> simp_all only [true_iff] <;> omega
  obtain ⟨⟨b, hb⟩⟩ := x
  obtain ⟨⟨c, hc⟩⟩ := y
  cases UInt64.toNat_inj.1 hbits
  rfl

/-! ### Unpacking -/

theorem toNat_unpackExponent (x : Float) :
    (@unpackExponent binary64 x.toBits.toBitVec).toNat = exponentField x := by
  show (x.toBits.toNat >>> 52) % 2 ^ 11 = x.toBits.toNat / 2 ^ 52 % 2 ^ 11
  rw [Nat.shiftRight_eq_div_pow]

theorem toNat_unpackMantissa (x : Float) :
    (@unpackMantissa binary64 x.toBits.toBitVec).toNat = fraction x :=
  rfl

theorem toNat_unpackSign (x : Float) :
    (@unpackSign binary64 x.toBits.toBitVec).toNat = x.toBits.toNat / 2 ^ 63 := by
  have hlt := x.toBits.toNat_lt
  show (x.toBits.toNat >>> 63) % 2 ^ 1 = x.toBits.toNat / 2 ^ 63
  rw [Nat.shiftRight_eq_div_pow]
  omega

/-- The sign of a double. -/
def signOf (x : Float) : Sign :=
  if isNegative x then .negative else .positive

theorem ofBitVec_unpackSign (x : Float) :
    Sign.ofBitVec (@unpackSign binary64 x.toBits.toBitVec) = signOf x := by
  have hsign := toNat_unpackSign x
  have hlt := x.toBits.toNat_lt
  unfold signOf Sign.ofBitVec
  by_cases h : isNegative x = true
  · have hone := hsign.trans ((isNegative_iff x).1 h)
    have hset : @unpackSign binary64 x.toBits.toBitVec = 1#1 := BitVec.eq_of_toNat_eq hone
    rw [if_pos h, hset]
    rfl
  · have hnot := mt (isNegative_iff x).2 h
    have hclear : @unpackSign binary64 x.toBits.toBitVec = 0#1 :=
      BitVec.eq_of_toNat_eq (hsign.trans (show _ = 0 by omega))
    rw [if_neg h, hclear]
    rfl

theorem toNat_append_mantissa (x : Float) :
    (1#1 ++ @unpackMantissa binary64 x.toBits.toBitVec).toNat = fraction x + Nat.pow 2 52 := by
  rw [BitVec.toNat_append, ← Nat.shiftLeft_add_eq_or_of_lt (BitVec.isLt _), toNat_unpackMantissa,
    Nat.add_comm]
  rfl

/-- **A finite double is a zero, or it is made of its sign, its significand and its scale.** -/
theorem unpack_of_finite {x : Float} (h : x.isFinite = true) :
    (significand x = 0 ∧ x.toModel.unpack = .zero (signOf x)) ∨
      ∃ hpos : 0 < significand x,
        x.toModel.unpack = .finite (signOf x) (significand x) (scale x) hpos := by
  have hexponent := toNat_unpackExponent x
  have hfraction := toNat_unpackMantissa x
  have hunpack : x.toModel.unpack = UnpackedFloat.unpack binary64 x.toBits.toBitVec := rfl
  have hfinite : (UnpackedFloat.unpack binary64 x.toBits.toBitVec).isFinite = true := h
  rw [hunpack]
  unfold UnpackedFloat.unpack at hfinite ⊢
  dsimp only at hfinite ⊢
  rw [ofBitVec_unpackSign] at hfinite ⊢
  -- the largest exponent is that of infinity and of what is not a number
  by_cases hlargest : @unpackExponent binary64 x.toBits.toBitVec = -1#11
  · rw [if_pos hlargest] at hfinite
    split at hfinite <;> cases hfinite
  rw [if_neg hlargest]
  unfold significand scale
  by_cases hzero : exponentField x = 0
  case pos =>
    have hnone : @unpackExponent binary64 x.toBits.toBitVec = 0#11 :=
      BitVec.eq_of_toNat_eq (hexponent.trans hzero)
    rw [if_pos hnone, if_pos hzero, if_pos hzero]
    by_cases hmantissa : @unpackMantissa binary64 x.toBits.toBitVec = 0#52
    case pos =>
      rw [dif_pos hmantissa]
      exact .inl ⟨hfraction.symm.trans (congrArg BitVec.toNat hmantissa), rfl⟩
    case neg =>
      rw [dif_neg hmantissa]
      have hpos : 0 < fraction x := Nat.pos_of_ne_zero fun hnil =>
        hmantissa (BitVec.eq_of_toNat_eq (hfraction.trans hnil))
      refine .inr ⟨hpos, ?_⟩
      rw [UnpackedFloat.finite.injEq, hexponent, hzero]
      exact ⟨rfl, hfraction, rfl⟩
  case neg =>
    have hsome : @unpackExponent binary64 x.toBits.toBitVec ≠ 0#11 := by
      intro hnil
      rw [hnil] at hexponent
      exact hzero hexponent.symm
    rw [if_neg hsome, if_neg hzero, if_neg hzero]
    refine .inr ⟨Nat.add_pos_right _ (Nat.two_pow_pos 52), ?_⟩
    rw [UnpackedFloat.finite.injEq, hexponent]
    exact ⟨rfl, toNat_append_mantissa x, rfl⟩

/-! ### Places -/

theorem toLex_le_iff (a a' b b' c c' : ℤ) :
    toLex (a, toLex (b, c)) ≤ toLex (a', toLex (b', c')) ↔
      a < a' ∨ a = a' ∧ (b < b' ∨ b = b' ∧ c ≤ c') := by
  rw [Prod.Lex.toLex_le_toLex, Prod.Lex.toLex_le_toLex]

theorem significand_eq_zero_iff (x : Float) : significand x = 0 ↔ magnitudeBits x = 0 := by
  rw [magnitudeBits_eq]
  unfold significand
  dsimp only [Nat.pow_eq]
  split <;> omega

/-- The place of a finite double, by its parts. -/
theorem placeOf?_of_finite {x : Float} (h : x.isFinite = true) : placeOf? x = some
    (if magnitudeBits x = 0 then toLex (0, toLex (0, 0))
      else if isNegative x then toLex (-1, toLex (-scale x, -(significand x : ℤ)))
      else toLex (1, toLex (scale x, (significand x : ℤ)))) := by
  have hzero_iff := significand_eq_zero_iff x
  unfold placeOf?
  rcases unpack_of_finite h with ⟨hzero, hunpack⟩ | ⟨hpos, hunpack⟩
  · rw [hunpack, if_pos (hzero_iff.1 hzero)]
    rfl
  · rw [hunpack, if_neg (mt hzero_iff.2 (Nat.ne_of_gt hpos))]
    unfold signOf
    cases isNegative x <;> rfl

/-- With more in the bits goes a greater scale, or an equal one and no smaller a significand. -/
theorem scale_significand_le {x y : Float} (h : magnitudeBits x ≤ magnitudeBits y) :
    scale x < scale y ∨ scale x = scale y ∧ (significand x : ℤ) ≤ significand y := by
  have hx := fraction_lt x
  have hy := fraction_lt y
  rw [magnitudeBits_eq, magnitudeBits_eq] at h
  unfold scale significand
  dsimp only [Nat.pow_eq]
  split <;> split <;> omega

/-- **Finite numbers are in the order of their ranks.** -/
theorem le_of_rank_le {x y : Float} (hx : x.isFinite = true) (hy : y.isFinite = true)
    (h : rank x ≤ rank y) : x ≤ y := by
  refine le_iff.2 ⟨_, placeOf?_of_finite hx, _, placeOf?_of_finite hy, ?_⟩
  rw [rank_eq, rank_eq] at h
  cases hsx : isNegative x <;> cases hsy : isNegative y <;>
    simp only [hsx, hsy, if_true, if_false, Bool.false_eq_true] at h ⊢
  case false.false =>
    have hparts := @scale_significand_le x y (by omega)
    split <;> split <;> rw [toLex_le_iff] <;> omega
  case false.true => omega
  case true.false => split <;> split <;> rw [toLex_le_iff] <;> omega
  case true.true =>
    have hparts := @scale_significand_le y x (by omega)
    split <;> split <;> rw [toLex_le_iff] <;> omega

/-! ### Finite numbers -/

section Finite
variable {x y : Float} (hx : x.isFinite = true) (hy : y.isFinite = true)
include hx

theorem le_self_of_finite : x ≤ x :=
  le_of_rank_le hx hx (Int.le_refl _)

include hy

/-- Of two finite numbers one is on the other side. -/
theorem lt_or_le_of_finite : x < y ∨ y ≤ x := by
  obtain ⟨a, ha⟩ : ∃ a, placeOf? x = some a := ⟨_, placeOf?_of_finite hx⟩
  obtain ⟨b, hb⟩ : ∃ b, placeOf? y = some b := ⟨_, placeOf?_of_finite hy⟩
  rcases lt_or_ge a b with hlt | hle
  · exact .inl (lt_iff.2 ⟨a, ha, b, hb, hlt⟩)
  · exact .inr (le_iff.2 ⟨b, hb, a, ha, hle⟩)

end Finite

end Lending.Number
