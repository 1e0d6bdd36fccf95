import Mathlib
import Lending.Proofs.Text.Levenshtein
import Lending.Text.Edit

/-! The table of edit distances, row by row, and the texts nearest to another.

The two loops keep one invariant each (`FilledTo`): the cells that are written so far of the row of
a prefix are its distances from the prefixes of the other text. A cell follows from the three around
it as the last characters of two lists are compared last (`FilledTo.write`); of the old row that is
written over nothing is left by the end. -/
namespace Lending.Text
open Std.Do

set_option mvcgen.warning false

/-! ### A row -/

/-- Up to the cell at `last`, a row holds the distances of `s` from the prefixes of the target. -/
def FilledTo (target : Array Char) (s : List Char) (last : Nat)
    (row : Vector Nat (target.size + 1)) : Prop :=
  ∀ j (h : j < target.size + 1), j ≤ last → row[j] = levenshtein s (target.toList.take j)

namespace FilledTo
variable {target : Array Char} {s : List Char} {previous row : Vector Nat (target.size + 1)}

/-- The row of the empty prefix. -/
theorem first : FilledTo target [] target.size (Vector.ofFn fun j => j.val) := by
  intro j _ hj
  rw [levenshtein_nil_left, List.length_take, Array.length_toList, Vector.getElem_ofFn]
  exact (Nat.min_eq_left hj).symm

/-- The next cell follows from the one before it and the two above. -/
theorem write {c : Char} {j : Nat} (hprevious : FilledTo target s target.size previous)
    (hrow : FilledTo target (s ++ [c]) j row) (hj : j < target.size) :
    FilledTo target (s ++ [c]) (j + 1) (row.set (j + 1)
      (min (min (previous[j + 1] + 1) (row[j] + 1))
        (previous[j] + if c = target[j] then 0 else 1))) := by
  intro k hk hle
  rw [Vector.getElem_set]
  split
  · next heq =>
    subst heq
    have htake : target.toList.take (j + 1) = target.toList.take j ++ [target[j]] :=
      List.take_succ_eq_append_getElem hj
    rw [hprevious (j + 1) hk hj, hprevious j _ hj.le, hrow j _ (Nat.le_refl j), htake]
    exact (levenshtein_concat_concat ..).symm
  · next hne => exact hrow k hk (by omega)

end FilledTo

/-! ### The loops -/

/-- Where a loop over positions is. -/
theorem position_of_split {n i : Nat} {before after : List Nat}
    (h : (0...n).toList = before ++ i :: after) : i = before.length ∧ before.length < n := by
  have hi : (0...n).toList[before.length]? = some i := by
    rw [h, List.getElem?_append_right (Nat.le_refl _), Nat.sub_self, List.getElem?_cons_zero]
  obtain ⟨hlt, hpos⟩ := Nat.getElem?_toList_rco_eq_some_iff.1 hi
  rw [Nat.zero_add] at hpos
  exact ⟨hpos.symm, by omega⟩

/-- A row is written whole, whatever it is written over. -/
theorem filledTo_writeRow {target : Array Char} {s : List Char}
    {previous : Vector Nat (target.size + 1)} (hprevious : FilledTo target s target.size previous)
    (c : Char) (old : Vector Nat (target.size + 1)) :
    FilledTo target (s ++ [c]) target.size (writeRow target c s.length previous old) := by
  generalize hwritten : writeRow target c s.length previous old = written
  apply Id.of_wp_run_eq hwritten
  mvcgen
  case inv1 => exact ⇓⟨cells, row⟩ => ⌜FilledTo target (s ++ [c]) cells.pos row⌝
  case vc1.step before j after hcells row cost row' hrow =>
    obtain ⟨rfl, hj⟩ := position_of_split hcells
    have hrow : FilledTo target (s ++ [c]) before.length row := hrow
    show FilledTo target (s ++ [c]) (before ++ [before.length]).length row'
    rw [List.length_append, List.length_singleton]
    exact hprevious.write hrow hj
  case vc2.pre =>
    -- The first cell is the distance from the empty prefix, and the only one that is written.
    intro j _ hj
    obtain rfl := Nat.le_zero.1 hj
    rw [Vector.getElem_set_self, List.take_zero, levenshtein_nil_right, List.length_append,
      List.length_singleton]
  case vc3.post.success row hrow =>
    have hrow : FilledTo target (s ++ [c]) (0...target.size).toList.length row := hrow
    rwa [Nat.length_toList_rco, Nat.sub_zero] at hrow

/-- **The last cell is the edit distance**, also where there is no cell to write. -/
theorem editChars_eq (source target : Array Char) :
    editChars source target = levenshtein source.toList target.toList := by
  generalize hfound : editChars source target = distance
  apply Id.of_wp_run_eq hfound
  mvcgen
  case inv1 =>
    exact ⇓⟨rows, previous, _⟩ =>
      ⌜FilledTo target (source.toList.take rows.pos) target.size previous⌝
  case vc1.isTrue hempty =>
    rw [Array.isEmpty_iff] at hempty
    subst hempty
    exact levenshtein_nil_left.symm
  case vc2.isFalse.isTrue hempty =>
    rw [Array.isEmpty_iff] at hempty
    subst hempty
    exact levenshtein_nil_right.symm
  case vc3.step before i after hrows rows previous old written hprevious =>
    obtain ⟨rfl, hi⟩ := position_of_split hrows
    have hprevious : FilledTo target (source.toList.take before.length) target.size previous :=
      hprevious
    have htake : source.toList.take (before.length + 1) =
        source.toList.take before.length ++ [source[before.length]] :=
      List.take_succ_eq_append_getElem hi
    have hlength : (source.toList.take before.length).length = before.length :=
      List.length_take_of_le hi.le
    have hwritten := filledTo_writeRow hprevious source[before.length] old
    show FilledTo target (source.toList.take (before ++ [before.length]).length) target.size written
    rw [List.length_append, List.length_singleton, htake]
    rwa [hlength] at hwritten
  case vc4.isFalse.isFalse.pre => exact FilledTo.first
  case vc5.isFalse.isFalse.post.success rows hrows =>
    have hrows : FilledTo target (source.toList.take (0...source.size).toList.length) target.size
        rows.1 := hrows
    rw [hrows target.size _ (Nat.le_refl _), Nat.length_toList_rco, Nat.sub_zero,
      ← Array.length_toList, ← Array.length_toList, List.take_length, List.take_length]

/-- What makes a number for every two texts their edit distance. -/
structure MeasuresEdits (distance : String → String → Nat) : Prop where
  recursive : ∀ s t, distance s t = levenshtein s.toList t.toList
  /-- That many edits turn one text into the other, and no fewer. -/
  least : ∀ s t, Edits s.toList t.toList (distance s t) ∧
    ∀ k, Edits s.toList t.toList k → distance s t ≤ k
  comm : ∀ s t, distance s t = distance t s
  eq_zero_iff : ∀ s t, distance s t = 0 ↔ s = t
  triangle : ∀ s t u, distance s u ≤ distance s t + distance t u

theorem editDistance_eq (s t : String) : editDistance s t = levenshtein s.toList t.toList := by
  rw [editDistance, editChars_eq]

theorem measuresEdits_editDistance : MeasuresEdits editDistance where
  recursive := editDistance_eq
  least s t := by
    rw [editDistance_eq]
    exact ⟨edits_levenshtein _ _, fun _ => levenshtein_le⟩
  comm s t := by rw [editDistance_eq, editDistance_eq, levenshtein_comm]
  eq_zero_iff s t := by rw [editDistance_eq, levenshtein_eq_zero_iff, String.toList_inj]
  triangle s t u := by
    simp only [editDistance_eq]
    exact levenshtein_triangle _ _ _

/-! ### The nearest text -/

/-- The first of the texts nearest to `s`, and no farther than `limit`. -/
structure IsNearest (limit : Nat) (s : String) (known : List String) (found : String) : Prop where
  near : editDistance s found ≤ limit
  least : ∀ other ∈ known, editDistance s found ≤ editDistance s other
  first : ∃ before after, known = before ++ found :: after ∧
    ∀ other ∈ before, editDistance s found < editDistance s other

namespace IsNearest
variable {limit : Nat} {s c found other : String} {rest known : List String}

theorem mem (h : IsNearest limit s known found) : found ∈ known := by
  obtain ⟨before, after, rfl, _⟩ := h.first
  simp

theorem head (hc : editDistance s c ≤ limit)
    (hrest : ∀ other ∈ rest, editDistance s c ≤ editDistance s other) :
    IsNearest limit s (c :: rest) c where
  near := hc
  least := List.forall_mem_cons.2 ⟨Nat.le_refl _, hrest⟩
  first := ⟨[], rest, rfl, List.forall_mem_nil _⟩

theorem tail (h : IsNearest limit s rest found)
    (hc : editDistance s found < editDistance s c) : IsNearest limit s (c :: rest) found where
  near := h.near
  least := List.forall_mem_cons.2 ⟨hc.le, h.least⟩
  first := by
    obtain ⟨before, after, rfl, hbefore⟩ := h.first
    exact ⟨c :: before, after, rfl, List.forall_mem_cons.2 ⟨hc, hbefore⟩⟩

/-- Neither of two first ones is before the other. -/
theorem unique (h : IsNearest limit s known found) (h' : IsNearest limit s known other) :
    other = found := by
  obtain ⟨before, after, hsplit, hbefore⟩ := h.first
  obtain ⟨before', after', hsplit', hbefore'⟩ := h'.first
  have hnot : other ∉ before := fun hmem =>
    absurd (hbefore other hmem) (Nat.not_lt.2 (h'.least found h.mem))
  have hnot' : found ∉ before' := fun hmem =>
    absurd (hbefore' found hmem) (Nat.not_lt.2 (h.least other h'.mem))
  rcases List.append_eq_append_iff.1 (hsplit.symm.trans hsplit') with
    ⟨mid, rfl, hrest⟩ | ⟨mid, rfl, hrest⟩
  · cases mid with
    | nil => exact (List.cons.inj hrest).1.symm
    | cons m mid =>
      rw [(List.cons.inj hrest).1] at hnot'
      simp at hnot'
  · cases mid with
    | nil => exact (List.cons.inj hrest).1
    | cons m mid =>
      rw [(List.cons.inj hrest).1] at hnot
      simp at hnot

end IsNearest

theorem nearest?_eq_none_iff {limit : Nat} {s : String} {known : List String} :
    nearest? limit s known = none ↔ ∀ other ∈ known, limit < editDistance s other := by
  induction known with
  | nil => simp [nearest?]
  | cons c rest ih =>
    rw [nearest?, List.forall_mem_cons]
    split
    · next hfar => rw [ih, and_iff_right hfar]
    · next hnear =>
      refine iff_of_false ?_ fun h => hnear h.1
      split
      · split <;> simp
      · simp

theorem isNearest_of_some {limit : Nat} {s : String} {known : List String} {found : String}
    (h : nearest? limit s known = some found) : IsNearest limit s known found := by
  induction known generalizing found with
  | nil => cases h
  | cons c rest ih =>
    rw [nearest?] at h
    split at h
    · next hfar => exact (ih h).tail ((ih h).near.trans_lt hfar)
    · next hnear =>
      rw [Nat.not_lt] at hnear
      cases hrest : nearest? limit s rest with
      | none =>
        rw [hrest] at h
        cases h
        exact .head hnear fun other hmem => hnear.trans (nearest?_eq_none_iff.1 hrest other hmem).le
      | some other =>
        rw [hrest] at h
        dsimp only at h
        split at h
        · next hless =>
          cases h
          exact (ih hrest).tail hless
        · next hmore =>
          cases h
          exact .head hnear fun o hmem => (Nat.not_lt.1 hmore).trans ((ih hrest).least o hmem)

theorem nearest?_eq_some_iff {limit : Nat} {s : String} {known : List String} {found : String} :
    nearest? limit s known = some found ↔ IsNearest limit s known found := by
  refine ⟨isNearest_of_some, fun h => ?_⟩
  cases hfound : nearest? limit s known with
  | none => exact absurd h.near (Nat.not_le.2 (nearest?_eq_none_iff.1 hfound found h.mem))
  | some other => rw [h.unique (isNearest_of_some hfound)]

/-- **Suggestions rest on the edit distance**: it is what recursion gives, the least number of
edits, and a distance. The text suggested is the first of the known ones that are nearest, if these
are no farther than two edits, and none otherwise. -/
theorem suggests_nearest : MeasuresEdits editDistance ∧ ∀ (s : String) (known : List String),
    (∀ found, nearest? 2 s known = some found ↔ IsNearest 2 s known found) ∧
    (nearest? 2 s known = none ↔ ∀ other ∈ known, 2 < editDistance s other) :=
  ⟨measuresEdits_editDistance, fun _ _ => ⟨fun _ => nearest?_eq_some_iff, nearest?_eq_none_iff⟩⟩

example : nearest? 2 "severty" ["id", "severity", "seventy"] = some "severity" := by cbv

end Lending.Text
