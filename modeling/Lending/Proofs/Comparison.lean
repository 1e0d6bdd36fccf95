import Lending.Proofs.Checks
import Lending.Proofs.Number.Order
import Lending.Threshold

/-! What comparisons come to.

A threshold suits its operator or it does not, whatever it is compared with (`Threshold.Unsuited`),
and only an unsuited one is an error (`Operator.holds_error_iff`). Null is compared with nothing, so
it never comes to light there. Of what suits, the operators say the same things in several ways:
two are the negations of two others, a list asks for one of its items, and a range is its two
ends (`Value.Coherent`). -/
namespace Lending

/-! ### Thresholds that suit no comparison -/

namespace Threshold

theorem number?_number {x : Float} (h : x.isFinite = true) : (number x).number? = some x :=
  if_pos h

/-- What is wrong with a threshold for an operator, whatever it is compared with. -/
inductive Unsuited (t : Threshold) : Operator → Fault → Prop
  | notNumeric {op : Operator} (hop : op.isOrdering = true) (ht : t.number? = none) :
      Unsuited t op .notNumeric
  | notScalar {op : Operator} (hop : op = .eq ∨ op = .neq) (ht : ∀ v, t ≠ .scalar v) :
      Unsuited t op .notScalar
  | notList {op : Operator} (hop : op.isMembership = true) (ht : ∀ items, t ≠ .list items) :
      Unsuited t op .notList
  | noBounds (ht : t.bounds? = none) : Unsuited t .between .noBounds
  | crossedBounds {min max : Float} (ht : t.bounds? = some (min, max)) (h : max < min) :
      Unsuited t .between .crossedBounds

end Threshold

/-! ### One operator at a time -/

namespace Operator
variable {op : Operator} {t : Threshold} {fault : Threshold.Fault}

theorem holds_of_isOrdering (hop : op.isOrdering = true) (actual : Value) (t : Threshold) :
    op.holds actual t =
      match t.number? with
      | none => .error .notNumeric
      | some limit => .ok (actual.number?.any (op.orders · limit)) := by
  cases op with
  | gte | lte | gt | lt => rfl
  | eq | neq | oneOf | noneOf | between => cases hop

theorem holds_of_isMembership (hop : op.isMembership = true) (actual : Value) (t : Threshold) :
    op.holds actual t =
      match t with
      | .list items => .ok (items.any (actual.agrees ·) == (op == .oneOf))
      | _ => .error .notList := by
  cases op with
  | oneOf | noneOf => rfl
  | gte | lte | gt | lt | eq | neq | between => cases hop

theorem holds_unsuited (h : t.Unsuited op fault) (actual : Value) :
    op.holds actual t = .error fault := by
  cases h with
  | notNumeric hop ht => rw [holds_of_isOrdering hop, ht]
  | notScalar hop ht =>
    cases t with
    | scalar v => exact absurd rfl (ht v)
    | range | list => rcases hop with rfl | rfl <;> rfl
  | notList hop ht =>
    rw [holds_of_isMembership hop]
    cases t with
    | list items => exact absurd rfl (ht items)
    | range | scalar => rfl
  | noBounds ht => rw [holds, ht]
  | crossedBounds ht h => simp only [holds, ht, if_pos h]

theorem unsuited_of_holds {actual : Value} (h : op.holds actual t = .error fault) :
    t.Unsuited op fault := by
  cases op with
  | gte | lte | gt | lt =>
    rw [holds_of_isOrdering rfl] at h
    split at h
    · next hnone =>
      cases h
      exact .notNumeric rfl hnone
    · cases h
  | eq | neq =>
    cases t with
    | scalar v => cases h
    | range | list =>
      cases h
      exact .notScalar (by simp) (by simp)
  | oneOf | noneOf =>
    cases t with
    | list items => cases h
    | range | scalar =>
      cases h
      exact .notList rfl (by simp)
  | between =>
    cases hbounds : t.bounds? with
    | none =>
      rw [holds, hbounds] at h
      cases h
      exact .noBounds hbounds
    | some bounds =>
      rw [holds, hbounds] at h
      by_cases hcrossed : bounds.2 < bounds.1
      · cases (if_pos hcrossed).symm.trans h
        exact .crossedBounds hbounds hcrossed
      · cases (if_neg hcrossed).symm.trans h

/-- **Whether a comparison can be made is a matter of its operator and its threshold.** -/
theorem holds_error_iff {actual : Value} :
    op.holds actual t = .error fault ↔ t.Unsuited op fault :=
  ⟨unsuited_of_holds, fun h => holds_unsuited h actual⟩

theorem holds_ordering (hop : op.isOrdering = true) {limit : Float}
    (ht : t.number? = some limit) (actual : Value) :
    op.holds actual t = .ok (actual.number?.any (op.orders · limit)) := by
  rw [holds_of_isOrdering hop, ht]

theorem holds_between {min max : Float} (ht : t.bounds? = some (min, max))
    (h : min ≤ max) (actual : Value) : holds .between actual t =
      .ok (actual.number?.any fun x => decide (min ≤ x) && decide (x ≤ max)) := by
  simp [holds, ht, Number.not_lt_of_le h]

theorem holds_neq (actual : Value) (t : Threshold) : (holds .neq actual t) =
    (holds .eq actual t).map not := by
  cases t with
  | scalar v =>
    show Except.ok (actual.agrees v == false) = .ok (!(actual.agrees v == true))
    cases actual.agrees v <;> rfl
  | range | list => rfl

theorem holds_noneOf (actual : Value) (t : Threshold) : (holds .noneOf actual t) =
    (holds .oneOf actual t).map not := by
  cases t with
  | list items =>
    show Except.ok (items.any (actual.agrees ·) == false) =
      .ok (!(items.any (actual.agrees ·) == true))
    cases items.any (actual.agrees ·) <;> rfl
  | range | scalar => rfl

end Operator

/-! ### Values -/

theorem map_not_ok_iff {ε : Type} {x : Except ε Bool} {b : Bool} :
    x.map not = .ok b ↔ x = .ok (!b) := by
  rw [map_ok_iff]
  constructor
  · rintro ⟨b, rfl, rfl⟩
    rw [Bool.not_not]
  · rintro rfl
    exact ⟨_, rfl, Bool.not_not b⟩

namespace Value
variable {a : Value} {op : Operator} {t : Threshold}

theorem isFinite_of_number? {x : Float} (h : a.number? = some x) : x.isFinite = true := by
  cases a with
  | number y =>
    rw [number?, Option.ite_none_right_eq_some] at h
    cases h.2
    exact h.1
  | text s =>
    rw [number?, Option.filter_eq_some_iff] at h
    exact h.2
  | _ => simp [number?] at h

theorem compare_of_ne_null (h : a ≠ .null) (op : Operator) (t : Threshold) :
    a.compare op t = (op.holds a t).mapError (⟨op, ·⟩) := by
  cases a with
  | null => exact absurd rfl h
  | flag | number | text | array | object => rfl

theorem compare_ok_iff (h : a ≠ .null) {b : Bool} :
    a.compare op t = .ok b ↔ op.holds a t = .ok b := by
  rw [compare_of_ne_null h, mapError_ok_iff]

/-- What is at fault is the threshold, and never the value. -/
theorem compare_error_iff (h : a ≠ .null) {m : Threshold.Malformed} :
    a.compare op t = .error m ↔ m.operator = op ∧ t.Unsuited op m.fault := by
  rw [compare_of_ne_null h, mapError_error_iff]
  simp only [Operator.holds_error_iff]
  constructor
  · rintro ⟨fault, hfault, rfl⟩
    exact ⟨rfl, hfault⟩
  · rintro ⟨rfl, hfault⟩
    exact ⟨m.fault, hfault, rfl⟩

/-- How the comparisons of one value hang together. -/
structure Coherent (a : Value) : Prop where
  error_iff : ∀ op t m, a.compare op t = .error m ↔ m.operator = op ∧ t.Unsuited op m.fault
  neq_iff : ∀ t b, a.compare .neq t = .ok b ↔ a.compare .eq t = .ok (!b)
  noneOf_iff : ∀ t b, a.compare .noneOf t = .ok b ↔ a.compare .oneOf t = .ok (!b)
  oneOf : ∀ items, ∃ b, a.compare .oneOf (.list items) = .ok b ∧
    (b = true ↔ ∃ v ∈ items, a.compare .eq (.scalar v) = .ok true)
  between : ∀ min max : Float, min.isFinite = true → max.isFinite = true → min ≤ max →
    ∃ low high, a.compare .gte (.number min) = .ok low ∧ a.compare .lte (.number max) = .ok high ∧
      a.compare .between (.range min max) = .ok (low && high) ∧
      a.compare .between (.list [.number min, .number max]) = .ok (low && high)
  noNumber : a.number? = none → ∀ op t, op.isOrdering = true ∨ op = .between →
    (∀ fault, ¬ t.Unsuited op fault) → a.compare op t = .ok false

theorem compare_noNumber (h : a ≠ .null) (hnone : a.number? = none)
    (hop : op.isOrdering = true ∨ op = .between) (hsuits : ∀ fault, ¬ t.Unsuited op fault) :
    a.compare op t = .ok false := by
  rw [compare_ok_iff h]
  rcases hop with hop | rfl
  · cases hlimit : t.number? with
    | none => exact absurd (.notNumeric hop hlimit) (hsuits _)
    | some limit => rw [Operator.holds_ordering hop hlimit, hnone, Option.any_none]
  · cases hbounds : t.bounds? with
    | none => exact absurd (.noBounds hbounds) (hsuits _)
    | some bounds =>
      have hcrossed : ¬ bounds.2 < bounds.1 := fun hlt => hsuits _ (.crossedBounds hbounds hlt)
      simp only [Operator.holds, hbounds, if_neg hcrossed, hnone, Option.any_none]

theorem compare_between (h : a ≠ .null) {min max : Float} (hle : min ≤ max)
    (ht : t.bounds? = some (min, max)) : a.compare .between t =
      .ok (a.number?.any (Operator.orders .gte · min) &&
        a.number?.any (Operator.orders .lte · max)) := by
  rw [compare_ok_iff h, Operator.holds_between ht hle]
  cases a.number? <;> rfl

theorem coherent (h : a ≠ .null) : a.Coherent where
  error_iff op t m := compare_error_iff h
  neq_iff t b := by
    rw [compare_ok_iff h, compare_ok_iff h, Operator.holds_neq, map_not_ok_iff]
  noneOf_iff t b := by
    rw [compare_ok_iff h, compare_ok_iff h, Operator.holds_noneOf, map_not_ok_iff]
  oneOf items := by
    refine ⟨items.any (a.agrees ·) == true, (compare_ok_iff h).2 rfl, ?_⟩
    rw [beq_true, List.any_eq_true]
    refine exists_congr fun v => and_congr_right fun _ => ?_
    rw [compare_ok_iff h]
    show a.agrees v = true ↔ Except.ok (a.agrees v == true) = .ok true
    rw [beq_true, Except.ok.injEq]
  between min max hmin hmax hle := by
    have hbounds : (Threshold.list [.number min, .number max]).bounds? = some (min, max) := by
      simp only [Threshold.bounds?, number?, if_pos hmin, if_pos hmax]
    refine ⟨_, _, ?_, ?_, compare_between h hle rfl, compare_between h hle hbounds⟩
    · exact (compare_ok_iff h).2 (Operator.holds_ordering rfl (Threshold.number?_number hmin) a)
    · exact (compare_ok_iff h).2 (Operator.holds_ordering rfl (Threshold.number?_number hmax) a)
  noNumber hnone op t := compare_noNumber h hnone

/-- **Comparisons hang together.** Nothing holds of null. Of all other values, whatever they are,
the same thresholds are malformed and for the same reason. -/
theorem comparisons_cohere :
    (∀ op t, Value.null.compare op t = .ok false) ∧
      (∀ a b : Value, a ≠ .null → b ≠ .null → ∀ op t m,
        a.compare op t = .error m ↔ b.compare op t = .error m) ∧
      ∀ a : Value, a ≠ .null → a.Coherent :=
  ⟨fun _ _ => rfl,
    fun _ _ ha hb _ _ _ => (compare_error_iff ha).trans (compare_error_iff hb).symm,
    fun _ => coherent⟩

/-- A quoted term lies within its range and a flag does not. With the ends of the range swapped the
range is at fault for either. -/
theorem comparisons_cohere_term :
    (Value.text " 36 ").compare .between (.range 6 60) = .ok true ∧
      (Value.flag true).compare .between (.range 6 60) = .ok false ∧
      (Value.flag true).compare .between (.range 60 6) = .error ⟨.between, .crossedBounds⟩ := by
  obtain ⟨-, same, each⟩ := comparisons_cohere
  have hsuits : ∀ fault, ¬ (Threshold.range 6 60).Unsuited .between fault := by
    rintro _ (⟨hop, -⟩ | ⟨hop, -⟩ | ⟨hop, -⟩ | hnone | ⟨hbounds, h⟩)
    · cases hop
    · rcases hop with hop | hop <;> cases hop
    · cases hop
    · cases hnone
    · cases hbounds
      exact absurd h (by decide +kernel)
  refine ⟨?_, (each (.flag true) (by simp)).noNumber rfl .between _ (.inr rfl) hsuits, ?_⟩
  · obtain ⟨low, high, hlow, hhigh, hbetween, -⟩ := (each (.text " 36 ") (by simp)).between 6 60
      (by decide +kernel) (by decide +kernel) (by decide +kernel)
    have long : (Value.text " 36 ").compare .gte (.number 6) = .ok true := by decide +kernel
    have short : (Value.text " 36 ").compare .lte (.number 60) = .ok true := by decide +kernel
    cases hlow.symm.trans long
    cases hhigh.symm.trans short
    exact hbetween
  · exact (same (.text " 36 ") (.flag true) (by simp) (by simp) _ _ _).1 (by decide +kernel)

end Value
end Lending
