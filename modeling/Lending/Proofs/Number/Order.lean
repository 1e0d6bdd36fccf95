import Mathlib.Data.Int.Order.Basic
import Mathlib.Data.Prod.Lex
import Mathlib.Order.Compare

/-! The order of numbers.

To compare doubles is to compare their signs, then exponents, then mantissas. `place?` is that as a
place in a linear order, and `compare_eq` is that a comparison compares places. Only what is not a
number has none, so it is on no side of a comparison that holds, and between all others the laws
of a linear order hold. -/
namespace Lending.Number
open Float.Model

/-- Numbers of one sign go by their exponents first, and the two zeros are in one place. -/
def place? : UnpackedFloat → Option (ℤ ×ₗ ℤ ×ₗ ℤ)
  | .notANumber => none
  | .infinity .negative => some (toLex (-2, toLex (0, 0)))
  | .finite .negative m e _ => some (toLex (-1, toLex (-e, -m)))
  | .zero _ => some (toLex (0, toLex (0, 0)))
  | .finite .positive m e _ => some (toLex (1, toLex (e, m)))
  | .infinity .positive => some (toLex (2, toLex (0, 0)))

theorem compare_toLex (a a' b b' c c' : ℤ) :
    compare (toLex (a, toLex (b, c))) (toLex (a', toLex (b', c'))) =
      (compare a a').then ((compare b b').then (compare c c')) := by
  simp only [Prod.Lex.compare_def, compareLex, compareOn]
  rfl

theorem compare_neg_neg (a b : ℤ) : compare (-a) (-b) = (compare a b).swap := by
  rw [Int.compare_swap]
  simp only [compare, compareOfLessAndEq, Int.neg_lt_neg_iff, Int.neg_inj, eq_comm]

theorem compare_cast_cast (m n : ℕ) : compare (m : ℤ) n = compare m n := by
  simp only [compare, compareOfLessAndEq, Int.ofNat_lt, Int.ofNat_inj]

/-- **A comparison of numbers compares their places**, if both have one. -/
theorem compare_eq (u v : UnpackedFloat) :
    u.compare v = (place? u).bind fun a => (place? v).map (compare a) := by
  rcases u with (_ | _) | _ | _ | ⟨_ | _, m, e, hm⟩ <;>
    rcases v with (_ | _) | _ | _ | ⟨_ | _, m', e', hm'⟩ <;>
    dsimp only [UnpackedFloat.compare, place?, Option.bind_some, Option.bind_none, Option.map_some,
      Option.map_none] <;>
    simp only [compare_toLex, compare_neg_neg, compare_cast_cast, Ordering.swap_then] <;>
    rfl

/-- The place of a double. -/
def placeOf? (x : Float) : Option (ℤ ×ₗ ℤ ×ₗ ℤ) :=
  place? x.toModel.unpack

theorem le_iff {x y : Float} : x ≤ y ↔ ∃ a ∈ placeOf? x, ∃ b ∈ placeOf? y, a ≤ b := by
  have hle : x ≤ y ↔ x.toModel.unpack.le y.toModel.unpack = true := decide_eq_true_iff
  rw [hle, UnpackedFloat.le, compare_eq]
  show _ ↔ ∃ a ∈ place? _, ∃ b ∈ place? _, a ≤ b
  cases place? x.toModel.unpack <;> cases place? y.toModel.unpack <;>
    simp [← compare_le_iff_le, Ordering.isLE_iff_ne_gt]

theorem lt_iff {x y : Float} : x < y ↔ ∃ a ∈ placeOf? x, ∃ b ∈ placeOf? y, a < b := by
  have hlt : x < y ↔ x.toModel.unpack.lt y.toModel.unpack = true := decide_eq_true_iff
  rw [hlt, UnpackedFloat.lt, compare_eq]
  show _ ↔ ∃ a ∈ place? _, ∃ b ∈ place? _, a < b
  cases place? x.toModel.unpack <;> cases place? y.toModel.unpack <;>
    simp [compare_lt_iff_lt]

theorem le_of_lt {x y : Float} (h : x < y) : x ≤ y := by
  obtain ⟨a, ha, b, hb, hab⟩ := lt_iff.1 h
  exact le_iff.2 ⟨a, ha, b, hb, hab.le⟩

/-- Numbers are equal that share a place, as the two zeros do. -/
theorem beq_iff {x y : Float} : (x == y) = true ↔ ∃ a ∈ placeOf? y, a ∈ placeOf? x := by
  show (x.toModel.unpack.compare y.toModel.unpack == some .eq) = true ↔ _
  rw [beq_iff_eq, compare_eq]
  show _ ↔ ∃ a ∈ place? y.toModel.unpack, a ∈ place? x.toModel.unpack
  cases place? x.toModel.unpack <;> cases place? y.toModel.unpack <;>
    simp [compare_eq_iff_eq]

theorem le_of_beq {x y : Float} (h : (x == y) = true) : x ≤ y ∧ y ≤ x := by
  obtain ⟨a, hb, ha⟩ := beq_iff.1 h
  exact ⟨le_iff.2 ⟨a, ha, a, hb, le_rfl⟩, le_iff.2 ⟨a, hb, a, ha, le_rfl⟩⟩

theorem le_trans {x y z : Float} (h : x ≤ y) (h' : y ≤ z) : x ≤ z := by
  obtain ⟨a, ha, b, hb, hab⟩ := le_iff.1 h
  obtain ⟨b', hb', c, hc, hbc⟩ := le_iff.1 h'
  cases Option.mem_unique hb hb'
  exact le_iff.2 ⟨a, ha, c, hc, hab.trans hbc⟩

theorem lt_of_le_of_lt {x y z : Float} (h : x ≤ y) (h' : y < z) : x < z := by
  obtain ⟨a, ha, b, hb, hab⟩ := le_iff.1 h
  obtain ⟨b', hb', c, hc, hbc⟩ := lt_iff.1 h'
  cases Option.mem_unique hb hb'
  exact lt_iff.2 ⟨a, ha, c, hc, hab.trans_lt hbc⟩

theorem lt_of_lt_of_le {x y z : Float} (h : x < y) (h' : y ≤ z) : x < z := by
  obtain ⟨a, ha, b, hb, hab⟩ := lt_iff.1 h
  obtain ⟨b', hb', c, hc, hbc⟩ := le_iff.1 h'
  cases Option.mem_unique hb hb'
  exact lt_iff.2 ⟨a, ha, c, hc, hab.trans_le hbc⟩

theorem not_lt_of_le {x y : Float} (h : x ≤ y) : ¬ y < x := by
  intro hlt
  obtain ⟨a, ha, b, hb, hab⟩ := le_iff.1 h
  obtain ⟨b', hb', a', ha', hba⟩ := lt_iff.1 hlt
  cases Option.mem_unique ha ha'
  cases Option.mem_unique hb hb'
  exact absurd hba (not_lt.2 hab)

end Lending.Number
