import Lending.Proofs.Number.Quotient
import Lending.Proofs.Number.Rank

/-! Differences of numbers.

Every finite double is a whole multiple of the smallest positive one. In these `units` its value is
exact, and so is what lies between two of them. To compare doubles is to compare their units
(`le_iff_units`). The difference of two doubles is rounded, but rounding does not cross zero and
does not come to zero where the doubles differ: it leaves a number on the side of zero on which the
exact difference lies (`sided_sub`). -/
namespace Lending.Number
open Float.Model Float.Model.UnpackedFloat Float.Model.Format

/-! ### Units -/

/-- A number as a multiple of `2^(-1074)`, the smallest positive double. -/
def unitsOf : UnpackedFloat → ℤ
  | .finite s m e _ => s.apply (m * 2 ^ (e + 1074).toNat : ℕ)
  | _ => 0

/-- The exact value of a finite double, in multiples of the smallest positive one. -/
def units (x : Float) : ℤ :=
  unitsOf x.toModel.unpack

/-- The units of a double without its sign. -/
def magnitudeUnits (x : Float) : ℕ :=
  significand x * 2 ^ (scale x + 1074).toNat

theorem units_of_finite {x : Float} (h : x.isFinite = true) :
    units x = (signOf x).apply (magnitudeUnits x) := by
  unfold units magnitudeUnits
  rcases unpack_of_finite h with ⟨hzero, hunpack⟩ | ⟨hpos, hunpack⟩
  · rw [hunpack, hzero, Nat.zero_mul]
    cases signOf x <;> rfl
  · rw [hunpack]
    rfl

theorem units_eq {x : Float} (h : x.isFinite = true) :
    units x = if isNegative x then -(magnitudeUnits x : ℤ) else magnitudeUnits x := by
  rw [units_of_finite h]
  unfold signOf
  cases isNegative x <;> rfl

theorem magnitudeUnits_eq (x : Float) : magnitudeUnits x =
    if exponentField x = 0 then fraction x
    else (fraction x + 2 ^ 52) * 2 ^ (exponentField x - 1) := by
  unfold magnitudeUnits significand scale
  split
  · exact Nat.mul_one _
  · rw [show ((exponentField x : ℤ) - 1075 + 1074).toNat = exponentField x - 1 by omega]
    rfl

/-- The units grow with the bits. -/
theorem magnitudeUnits_lt {x y : Float} (h : magnitudeBits x < magnitudeBits y) :
    magnitudeUnits x < magnitudeUnits y := by
  have hx := fraction_lt x
  have hy := fraction_lt y
  rw [magnitudeBits_eq, magnitudeBits_eq] at h
  rw [magnitudeUnits_eq, magnitudeUnits_eq]
  have hpow : 2 ^ (exponentField x - 1) ≤ 2 ^ (exponentField y - 1) :=
    Nat.pow_le_pow_right (by omega) (by omega)
  have hone : 1 ≤ 2 ^ (exponentField y - 1) := Nat.one_le_two_pow
  by_cases hzero : exponentField y = 0
  · rw [if_pos hzero, if_pos (by omega)]
    omega
  rw [if_neg hzero]
  by_cases hxzero : exponentField x = 0
  · rw [if_pos hxzero]
    calc fraction x < 2 ^ 52 * 1 := by omega
      _ ≤ (fraction y + 2 ^ 52) * 2 ^ (exponentField y - 1) :=
        Nat.mul_le_mul (Nat.le_add_left ..) hone
  rw [if_neg hxzero]
  by_cases hsame : exponentField x = exponentField y
  · rw [hsame]
    exact Nat.mul_lt_mul_of_pos_right (by omega) (by omega)
  · have hnext : 2 ^ (exponentField y - 1) = 2 ^ (exponentField y - 1 - 1) * 2 := by
      rw [← Nat.pow_succ]
      congr 1
      omega
    have hstep : 2 ^ (exponentField x - 1) ≤ 2 ^ (exponentField y - 1 - 1) :=
      Nat.pow_le_pow_right (by omega) (by omega)
    calc (fraction x + 2 ^ 52) * 2 ^ (exponentField x - 1)
        < 2 ^ 53 * 2 ^ (exponentField x - 1) :=
          Nat.mul_lt_mul_of_pos_right (by omega) (Nat.two_pow_pos _)
      _ ≤ 2 ^ 53 * 2 ^ (exponentField y - 1 - 1) := Nat.mul_le_mul_left _ hstep
      _ = 2 ^ 52 * 2 ^ (exponentField y - 1) := by rw [hnext]; omega
      _ ≤ (fraction y + 2 ^ 52) * 2 ^ (exponentField y - 1) :=
        Nat.mul_le_mul_right _ (Nat.le_add_left ..)

theorem magnitudeBits_le {x y : Float} (h : magnitudeUnits x ≤ magnitudeUnits y) :
    magnitudeBits x ≤ magnitudeBits y :=
  Nat.not_lt.1 fun hlt => Nat.not_lt.2 h (magnitudeUnits_lt hlt)

theorem magnitudeBits_eq_zero {x : Float} (h : magnitudeUnits x = 0) : magnitudeBits x = 0 := by
  rw [← significand_eq_zero_iff]
  exact (Nat.mul_eq_zero.1 h).resolve_right (Nat.two_pow_pos _).ne'

/-! ### The order of the units -/

section Order
variable {x y : Float} (hx : x.isFinite = true) (hy : y.isFinite = true)
include hx hy

theorem le_of_units_le (h : units x ≤ units y) : x ≤ y := by
  rw [units_eq hx, units_eq hy] at h
  cases hsx : isNegative x <;> cases hsy : isNegative y <;>
    simp only [hsx, hsy, if_true, if_false, Bool.false_eq_true] at h
  case false.true =>
    -- Of a number that is not negative and one that is not positive, both are zeros.
    have hzx := magnitudeBits_eq_zero (x := x) (by omega)
    have hzy := magnitudeBits_eq_zero (x := y) (by omega)
    have hplace := placeOf?_of_finite hx
    rw [if_pos hzx] at hplace
    have hplace' := placeOf?_of_finite hy
    rw [if_pos hzy] at hplace'
    exact le_iff.2 ⟨_, hplace, _, hplace', le_rfl⟩
  all_goals
    refine le_of_rank_le hx hy ?_
    rw [rank_eq, rank_eq]
    simp only [hsx, hsy, if_true, if_false, Bool.false_eq_true]
  case false.false =>
    have hbits := magnitudeBits_le (x := x) (y := y) (by omega)
    omega
  case true.false => omega
  case true.true =>
    have hbits := magnitudeBits_le (x := y) (y := x) (by omega)
    omega

theorem units_eq_of_le_of_le (h : x ≤ y) (h' : y ≤ x) : units x = units y := by
  obtain ⟨a, ha, b, hb, hab⟩ := le_iff.1 h
  obtain ⟨b', hb', a', ha', hba⟩ := le_iff.1 h'
  cases Option.mem_unique ha ha'
  cases Option.mem_unique hb hb'
  obtain rfl := le_antisymm hab hba
  have hplace := (Option.mem_unique ha (placeOf?_of_finite hx)).symm.trans
    (Option.mem_unique hb (placeOf?_of_finite hy))
  rw [units_eq hx, units_eq hy]
  unfold magnitudeUnits
  -- One place means one sign, one scale and one significand, except that the two zeros share one.
  simp only [← significand_eq_zero_iff] at hplace
  split_ifs at hplace <;> simp_all

theorem le_iff_units : x ≤ y ↔ units x ≤ units y := by
  refine ⟨fun h => ?_, le_of_units_le hx hy⟩
  by_contra hlt
  have hback := le_of_units_le hy hx (by omega)
  have heq := units_eq_of_le_of_le hx hy h hback
  omega

theorem lt_iff_units : x < y ↔ units x < units y := by
  constructor
  · intro h
    have hnot : ¬ units y ≤ units x := fun hle => not_lt_of_le (le_of_units_le hy hx hle) h
    omega
  · intro h
    refine (lt_or_le_of_finite hx hy).resolve_right fun hle => ?_
    have := (le_iff_units hy hx).1 hle
    omega

theorem beq_iff_units : (x == y) = true ↔ units x = units y := by
  constructor
  · intro h
    obtain ⟨hle, hge⟩ := le_of_beq h
    exact units_eq_of_le_of_le hx hy hle hge
  · intro h
    obtain ⟨a, ha, b, hb, hab⟩ := le_iff.1 (le_of_units_le hx hy h.le)
    obtain ⟨b', hb', a', ha', hba⟩ := le_iff.1 (le_of_units_le hy hx h.ge)
    cases Option.mem_unique ha ha'
    cases Option.mem_unique hb hb'
    obtain rfl := le_antisymm hab hba
    exact beq_iff.2 ⟨a, hb, ha⟩

end Order

/-! ### Exact values -/

/-- The units of one. -/
def oneUnits : ℕ :=
  2 ^ 1074

theorem oneUnits_pos : 0 < oneUnits :=
  Nat.two_pow_pos 1074

/-- The exact value of a finite double. -/
def toRat (x : Float) : ℚ :=
  units x / oneUnits

section Exact
variable {x y : Float}

theorem toRat_le_iff : toRat x ≤ toRat y ↔ units x ≤ units y := by
  rw [toRat, toRat, div_le_div_iff_of_pos_right (Nat.cast_pos.2 oneUnits_pos), Int.cast_le]

theorem toRat_lt_iff : toRat x < toRat y ↔ units x < units y := by
  rw [← not_le, toRat_le_iff, not_le]

theorem toRat_eq_iff : toRat x = toRat y ↔ units x = units y := by
  rw [le_antisymm_iff, toRat_le_iff, toRat_le_iff, ← le_antisymm_iff]

end Exact

/-! ### Sides of zero -/

/-- The number lies on the side of zero that a whole number lies on. -/
inductive Sided : UnpackedFloat → ℤ → Prop
  | zero (s : Sign) : Sided (.zero s) 0
  | finite {s : Sign} {m : ℕ} {e : ℤ} {h : 0 < m} {k : ℤ} (hk : 0 < k) :
    Sided (.finite s m e h) (s.apply k)
  | infinity {s : Sign} {k : ℤ} (hk : 0 < k) : Sided (.infinity s) (s.apply k)

theorem apply_mul (s : Sign) (n c : ℤ) : s.apply n * c = s.apply (n * c) := by
  cases s <;> simp [Sign.apply]

theorem neg_apply (s : Sign) (n : ℤ) : (-s).apply n = -s.apply n := by
  cases s with
  | positive => rfl
  | negative => exact (Int.neg_neg n).symm

theorem Sided.mul {u : UnpackedFloat} {k c : ℤ} (h : Sided u k) (hc : 0 < c) : Sided u (k * c) := by
  cases h with
  | zero s =>
    rw [Int.zero_mul]
    exact .zero s
  | finite hk => exact apply_mul .. ▸ .finite (Int.mul_pos hk hc)
  | infinity hk => exact apply_mul .. ▸ .infinity (Int.mul_pos hk hc)

/-- The place of the two zeros. -/
def zeroPlace : ℤ ×ₗ ℤ ×ₗ ℤ :=
  toLex (0, toLex (0, 0))

theorem place_zero : placeOf? 0 = some zeroPlace :=
  rfl

/-- A side of zero is a side of its place. -/
theorem Sided.place {u : UnpackedFloat} {k : ℤ} (h : Sided u k) :
    ∃ p, place? u = some p ∧ (zeroPlace < p ↔ 0 < k) ∧ (p < zeroPlace ↔ k < 0) := by
  cases h with
  | zero s => exact ⟨zeroPlace, rfl, by simp, by simp⟩
  | @finite s m e h k hk =>
    cases s with
    | negative => exact ⟨_, rfl, by simp [zeroPlace, Prod.Lex.toLex_lt_toLex, Sign.apply]; omega⟩
    | positive => exact ⟨_, rfl, by simp [zeroPlace, Prod.Lex.toLex_lt_toLex, Sign.apply]; omega⟩
  | @infinity s k hk =>
    cases s with
    | negative => exact ⟨_, rfl, by simp [zeroPlace, Prod.Lex.toLex_lt_toLex, Sign.apply]; omega⟩
    | positive => exact ⟨_, rfl, by simp [zeroPlace, Prod.Lex.toLex_lt_toLex, Sign.apply]; omega⟩

section Places
variable {x y : Float} {a b : ℤ ×ₗ ℤ ×ₗ ℤ} (hx : placeOf? x = some a) (hy : placeOf? y = some b)
include hx hy

theorem le_iff_place : x ≤ y ↔ a ≤ b := by
  simp [le_iff, hx, hy]

theorem lt_iff_place : x < y ↔ a < b := by
  simp [lt_iff, hx, hy]

theorem beq_iff_place : (x == y) = true ↔ a = b := by
  simp [beq_iff, hx, hy]

end Places

section Sides
variable {z : Float} {k : ℤ} (h : Sided z.toModel.unpack k)
include h

theorem Sided.pos_iff : 0 < z ↔ 0 < k := by
  obtain ⟨p, hp, hpos, -⟩ := h.place
  rw [lt_iff_place place_zero hp, hpos]

theorem Sided.neg_iff : z < 0 ↔ k < 0 := by
  obtain ⟨p, hp, -, hneg⟩ := h.place
  rw [lt_iff_place hp place_zero, hneg]

theorem Sided.nonneg_iff : 0 ≤ z ↔ 0 ≤ k := by
  obtain ⟨p, hp, -, hneg⟩ := h.place
  rw [le_iff_place place_zero hp, ← not_lt, hneg, not_lt]

theorem Sided.nonpos_iff : z ≤ 0 ↔ k ≤ 0 := by
  obtain ⟨p, hp, hpos, -⟩ := h.place
  rw [le_iff_place hp place_zero, ← not_lt, hpos, not_lt]

theorem Sided.beq_zero_iff : (z == 0) = true ↔ k = 0 := by
  obtain ⟨p, hp, hpos, hneg⟩ := h.place
  rw [beq_iff_place hp place_zero, le_antisymm_iff, ← not_lt, ← not_lt, hpos, hneg]
  omega

end Sides

/-! ### Rounding -/

/-- Of a number that is not zero, rounding keeps some bits, and no more than 53. -/
theorem shiftToTargetExponent_bounds {m : ℕ} {e : ℤ} (hm : 0 < m) (he : -1074 ≤ e) (a : Accuracy) :
    ∃ (em : ExtendedMantissa) (k : ℕ), shiftToTargetExponent binary64 m e a = (em, e + k) ∧
      0 < em.mantissa ∧ em.mantissa < 2 ^ 53 := by
  have htarget : binary64.targetExponent (totalExponent m e) =
      max ((m.log2 : ℤ) + 1 + e - 53) (-1074) := rfl
  obtain ⟨hlow, hhigh⟩ := (Nat.log2_eq_iff (Nat.ne_of_gt hm)).1 rfl
  refine ⟨_, _, rfl, ?_⟩
  rw [mantissa_shiftRight, mantissa_ofMantissaAndAccuracy, htarget]
  by_cases hlong : 52 ≤ m.log2
  · obtain ⟨k, hk⟩ := Nat.exists_eq_add_of_le hlong
    rw [show (max ((m.log2 : ℤ) + 1 + e - 53) (-1074) - e).toNat = k by omega]
    have hlog := log2_div_two_pow hk
    have hpos : m / 2 ^ k ≠ 0 := by
      intro hzero
      rw [hzero, Nat.log2_zero] at hlog
      omega
    obtain ⟨_, hlt⟩ := (Nat.log2_eq_iff hpos).1 hlog
    exact ⟨Nat.pos_of_ne_zero hpos, hlt⟩
  · rw [show (max ((m.log2 : ℤ) + 1 + e - 53) (-1074) - e).toNat = 0 by omega, Nat.pow_zero,
      Nat.div_one]
    exact ⟨hm, hhigh.trans_le (Nat.pow_le_pow_right (by omega) (by omega))⟩

/-- **Rounding does not come to zero**, and it keeps the sign. -/
theorem round_finite (s : Sign) {m : ℕ} {e : ℤ} (hm : 0 < m) (he : -1074 ≤ e) :
    ∃ m' e', ∃ hm' : 0 < m', UnpackedFloat.round binary64 s m e = .finite s m' e' hm' ∧
      m' < 2 ^ 53 ∧ -1074 ≤ e' := by
  rw [UnpackedFloat.round]
  have htarget : binary64.targetExponent (totalExponent m e) =
      max ((m.log2 : ℤ) + 1 + e - 53) (-1074) := rfl
  rw [htarget, decreaseExponent]
  generalize hc : (e - max ((m.log2 : ℤ) + 1 + e - 53) (-1074)).toNat = c
  have hmc : 0 < m <<< c := by
    rw [Nat.shiftLeft_eq]
    exact Nat.mul_pos hm (Nat.two_pow_pos c)
  obtain ⟨em, k, hfirst, hpos, _⟩ :=
    shiftToTargetExponent_bounds (e := e - c) hmc (by omega) .exact
  obtain ⟨hge, _⟩ := roundedMantissa_bounds em
  obtain ⟨em', k', hsecond, hpos', hlt'⟩ :=
    shiftToTargetExponent_bounds (m := em.roundedMantissa) (e := e - c + k) (by omega) (by omega)
      .exact
  refine ⟨em'.mantissa, e - c + k + k', hpos', ?_, hlt', by omega⟩
  simp only [roundWithAccuracy, hfirst, hsecond, dif_neg (Nat.ne_of_gt hpos')]

/-! ### Sides of packed numbers -/

theorem sided_unpack_pack {s : Sign} {m : ℕ} {e : ℤ} (hm : 0 < m) (hlt : m < 2 ^ 53)
    (he : -1074 ≤ e) {k : ℤ} (hk : 0 < k) :
    Sided (UnpackedFloat.unpack binary64 (UnpackedFloat.pack binary64 (.finite s m e hm)))
      (s.apply k) := by
  by_cases hhuge : 971 < e
  · rw [pack_finite, if_pos (by omega), packedInfinity, unpack_packComponents]
    exact .infinity hk
  by_cases hfull : m.log2 = 52
  · rw [unpack_pack hm hfull he (by omega)]
    exact .finite hk
  · -- A shorter number is packed with the least exponent.
    have hshort : m < 2 ^ 52 := by
      by_contra hge
      exact hfull ((Nat.log2_eq_iff (Nat.ne_of_gt hm)).2 ⟨by omega, hlt⟩)
    have hmantissa : BitVec.ofNat 52 m ≠ 0#52 := by
      intro hnil
      have htoNat := congrArg BitVec.toNat hnil
      rw [BitVec.toNat_ofNat, BitVec.toNat_ofNat] at htoNat
      omega
    rw [pack_finite, if_neg (by omega), if_neg (by omega), unpack_packComponents, if_neg (by decide),
      if_pos rfl, dif_neg hmantissa]
    exact .finite hk

theorem sided_unpack_pack_zero (s : Sign) :
    Sided (UnpackedFloat.unpack binary64 (UnpackedFloat.pack binary64 (.zero s))) 0 := by
  show Sided (UnpackedFloat.unpack binary64 (packComponents binary64 s 0#11 0#52)) 0
  rw [unpack_packComponents, if_neg (by decide), if_pos rfl, dif_pos rfl]
  exact .zero s

/-! ### Differences -/

theorem significand_lt (x : Float) : significand x < 2 ^ 53 := by
  have hfraction := fraction_lt x
  unfold significand
  dsimp only [Nat.pow_eq]
  split <;> omega

theorem le_scale (x : Float) : -1074 ≤ scale x := by
  unfold scale
  split <;> omega

/-- Units at a common scale. -/
theorem shiftLeft_mul (m : ℕ) {e low : ℤ} (hlow : -1074 ≤ low) (hle : low ≤ e) :
    ((m <<< (e - low).toNat : ℕ) : ℤ) * 2 ^ (low + 1074).toNat =
      (m * 2 ^ (e + 1074).toNat : ℕ) := by
  rw [show (e + 1074).toNat = (e - low).toNat + (low + 1074).toNat by omega, Nat.shiftLeft_eq,
    Nat.pow_add, ← Nat.mul_assoc]
  norm_cast

/-- A number that is rounded and packed stays on its side of zero. -/
theorem sided_normalize {n e : ℤ} (he : -1074 ≤ e) :
    Sided (UnpackedFloat.unpack binary64 (UnpackedFloat.pack binary64
      (UnpackedFloat.normalize binary64 n e .positive))) n := by
  rw [UnpackedFloat.normalize]
  rcases lt_trichotomy n 0 with hneg | rfl | hpos
  · rw [Int.compare_eq_lt.2 hneg]
    obtain ⟨m, e', hm, hround, hlt, he'⟩ :=
      round_finite .negative (m := (-n).toNat) (by omega) he
    have hn : n = Sign.negative.apply (-n) := (Int.neg_neg n).symm
    simp only [hround]
    rw [hn]
    exact sided_unpack_pack hm hlt he' (by omega)
  · exact sided_unpack_pack_zero .positive
  · rw [Int.compare_eq_gt.2 hpos]
    obtain ⟨m, e', hm, hround, hlt, he'⟩ := round_finite .positive (m := n.toNat) (by omega) he
    simp only [hround]
    exact sided_unpack_pack hm hlt he' hpos

/-- **A difference lies on the side of zero on which the exact difference lies.** -/
theorem sided_sub {x y : Float} (hx : x.isFinite = true) (hy : y.isFinite = true) :
    Sided (x - y).toModel.unpack (units x - units y) := by
  show Sided (UnpackedFloat.unpack binary64 (UnpackedFloat.pack binary64
    (UnpackedFloat.sub binary64 x.toModel.unpack y.toModel.unpack)))
    (unitsOf x.toModel.unpack - unitsOf y.toModel.unpack)
  have hunits {m : ℕ} (h : 0 < m) (e : ℤ) : (0 : ℤ) < (m * 2 ^ (e + 1074).toNat : ℕ) :=
    Int.natCast_pos.2 (Nat.mul_pos h (Nat.two_pow_pos _))
  have hscale := le_scale x
  have hscale' := le_scale y
  rcases unpack_of_finite hx with ⟨-, hux⟩ | ⟨hpos, hux⟩ <;>
    rcases unpack_of_finite hy with ⟨-, huy⟩ | ⟨hpos', huy⟩ <;> rw [hux, huy]
  · rw [UnpackedFloat.sub]
    split <;> exact sided_unpack_pack_zero _
  · -- Nothing less a number is the number with its sign changed.
    have hside := sided_unpack_pack (s := -signOf y) hpos' (significand_lt y) hscale'
      (hunits hpos' (scale y))
    rw [neg_apply, ← Int.zero_sub] at hside
    exact hside
  · have hside := sided_unpack_pack (s := signOf x) hpos (significand_lt x) hscale
      (hunits hpos (scale x))
    rw [show unitsOf (.zero (signOf y)) = 0 from rfl, Int.sub_zero]
    exact hside
  · -- Two numbers are brought to the lower of their scales before one is taken from the other.
    have hside := sided_normalize (n := (signOf x).apply
      (significand x <<< (scale x - min (scale x) (scale y)).toNat : ℕ) - (signOf y).apply
      (significand y <<< (scale y - min (scale x) (scale y)).toNat : ℕ))
      (e := min (scale x) (scale y)) (by omega)
    have hscaled := hside.mul (c := 2 ^ (min (scale x) (scale y) + 1074).toNat) (by positivity)
    rw [Int.sub_mul, apply_mul, apply_mul, shiftLeft_mul _ (by omega) (by omega),
      shiftLeft_mul _ (by omega) (by omega)] at hscaled
    exact hscaled

end Lending.Number
