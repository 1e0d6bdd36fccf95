import Mathlib.Data.List.Basic
import Mathlib.Order.Lattice

/-! Edit distance by recursion.

`levenshtein` takes two lists of characters apart from the front. `Edits` are the ways to turn one
list into the other, character by character, with what they cost, and the recursion finds a way
that costs least (`edits_levenshtein`, `levenshtein_le`). As ways can be put together, their costs
make a distance, and as they can be gone from the back as well, the recursion holds at the ends of
the lists too (`levenshtein_concat_concat`). -/
namespace Lending.Text

/-- How many characters have to be put in, taken out or exchanged. Where the first characters are
the same, nothing is done about them. -/
def levenshtein : List Char → List Char → Nat
  | [], t => t.length
  | s, [] => s.length
  | c :: s, d :: t =>
    if c = d then levenshtein s t
    else 1 + min (min (levenshtein s (d :: t)) (levenshtein (c :: s) t)) (levenshtein s t)
termination_by s t => s.length + t.length

/-! ### The recursion -/

section Recursion
variable {c d : Char} {s t : List Char}

theorem levenshtein_nil_left : levenshtein [] t = t.length := by
  rw [levenshtein]

theorem levenshtein_nil_right : levenshtein s [] = s.length := by
  cases s with
  | nil => rw [levenshtein]
  | cons c s =>
    rw [levenshtein]
    exact List.cons_ne_nil c s

theorem levenshtein_cons_self : levenshtein (c :: s) (c :: t) = levenshtein s t := by
  rw [levenshtein, if_pos rfl]

theorem levenshtein_cons_of_ne (h : c ≠ d) : levenshtein (c :: s) (d :: t) =
    1 + min (min (levenshtein s (d :: t)) (levenshtein (c :: s) t)) (levenshtein s t) := by
  rw [levenshtein, if_neg h]

theorem levenshtein_comm (s t : List Char) : levenshtein s t = levenshtein t s := by
  fun_induction levenshtein s t with
  | case1 t => exact levenshtein_nil_right.symm
  | case2 s => exact levenshtein_nil_left.symm
  | case3 s c t ih => rw [levenshtein_cons_self, ih]
  | case4 c s d t hne ihs iht ih =>
    rw [levenshtein_cons_of_ne (Ne.symm hne), ihs, iht, ih, min_comm (levenshtein (d :: t) s)]

/-- A character more in the first list costs one edit at most, if one less in the second does. -/
theorem levenshtein_cons_le (c : Char) (t : List Char)
    (h : ∀ d t, levenshtein s t ≤ levenshtein s (d :: t) + 1) :
    levenshtein (c :: s) t ≤ levenshtein s t + 1 := by
  cases t with
  | nil => simp [levenshtein_nil_right]
  | cons d t =>
    by_cases hsame : c = d
    · subst hsame
      rw [levenshtein_cons_self]
      exact h c t
    · rw [levenshtein_cons_of_ne hsame]
      omega

theorem levenshtein_le_cons_right (d : Char) (s t : List Char) :
    levenshtein s t ≤ levenshtein s (d :: t) + 1 := by
  induction s generalizing d t with
  | nil =>
    simp only [levenshtein_nil_left, List.length_cons]
    omega
  | cons c s ih =>
    have hmore : levenshtein (c :: s) t ≤ levenshtein s t + 1 := levenshtein_cons_le c t ih
    by_cases hsame : c = d
    · subst hsame
      rwa [levenshtein_cons_self]
    · have hless := ih d t
      rw [levenshtein_cons_of_ne hsame]
      omega

theorem levenshtein_le_cons_left (c : Char) (s t : List Char) :
    levenshtein s t ≤ levenshtein (c :: s) t + 1 := by
  rw [levenshtein_comm s, levenshtein_comm (c :: s)]
  exact levenshtein_le_cons_right c t s

theorem levenshtein_cons_left_le (c : Char) (s t : List Char) :
    levenshtein (c :: s) t ≤ levenshtein s t + 1 :=
  levenshtein_cons_le c t fun d => levenshtein_le_cons_right d s

theorem levenshtein_cons_right_le (d : Char) (s t : List Char) :
    levenshtein s (d :: t) ≤ levenshtein s t + 1 := by
  rw [levenshtein_comm s, levenshtein_comm s]
  exact levenshtein_cons_left_le d t s

/-- What can be done about the first characters, whether or not they are the same. -/
theorem levenshtein_cons_cons (c d : Char) (s t : List Char) :
    levenshtein (c :: s) (d :: t) = min (min (levenshtein s (d :: t) + 1)
      (levenshtein (c :: s) t + 1)) (levenshtein s t + if c = d then 0 else 1) := by
  by_cases hsame : c = d
  · subst hsame
    have hs := levenshtein_le_cons_right c s t
    have ht := levenshtein_le_cons_left c s t
    rw [levenshtein_cons_self, if_pos rfl]
    omega
  · rw [levenshtein_cons_of_ne hsame, if_neg hsame]
    omega

end Recursion

/-! ### Edits -/

/-- A way to turn one list of characters into the other, and its cost. A character that is put in
its own place costs nothing. -/
inductive Edits : List Char → List Char → Nat → Prop
  | done : Edits [] [] 0
  | exchange (c d : Char) {s t : List Char} {k : Nat} (h : Edits s t k) :
    Edits (c :: s) (d :: t) (k + if c = d then 0 else 1)
  | remove (c : Char) {s t : List Char} {k : Nat} (h : Edits s t k) : Edits (c :: s) t (k + 1)
  | insert (d : Char) {s t : List Char} {k : Nat} (h : Edits s t k) : Edits s (d :: t) (k + 1)

namespace Edits
variable {s t u s' t' : List Char} {j k : Nat}

theorem keep (c : Char) (h : Edits s t k) : Edits (c :: s) (c :: t) k := by
  simpa using h.exchange c c

theorem refl (s : List Char) : Edits s s 0 := by
  induction s with
  | nil => exact .done
  | cons c s ih => exact ih.keep c

theorem removeAll (s : List Char) : Edits s [] s.length := by
  induction s with
  | nil => exact .done
  | cons c s ih => exact ih.remove c

theorem insertAll (t : List Char) : Edits [] t t.length := by
  induction t with
  | nil => exact .done
  | cons d t ih => exact ih.insert d

theorem eq_of_zero (h : Edits s t k) (hk : k = 0) : s = t := by
  induction h with
  | done => rfl
  | exchange c d _ ih =>
    obtain ⟨hrest, hcost⟩ := Nat.add_eq_zero_iff.1 hk
    have hsame : c = d := by simpa using hcost
    rw [hsame, ih hrest]
  | remove => cases hk
  | insert => cases hk

theorem append (h : Edits s t j) (h' : Edits s' t' k) : Edits (s ++ s') (t ++ t') (j + k) := by
  induction h with
  | done => simpa using h'
  | exchange c d _ ih => exact Nat.add_right_comm .. ▸ ih.exchange c d
  | remove c _ ih => exact Nat.add_right_comm .. ▸ ih.remove c
  | insert d _ ih => exact Nat.add_right_comm .. ▸ ih.insert d

theorem reverse (h : Edits s t k) : Edits s.reverse t.reverse k := by
  induction h with
  | done => exact .done
  | exchange c d _ ih =>
    have hlast := ih.append (Edits.done.exchange c d)
    rwa [Nat.zero_add, ← List.reverse_cons, ← List.reverse_cons] at hlast
  | remove c _ ih => simpa using ih.append (Edits.done.remove c)
  | insert d _ ih => simpa using ih.append (Edits.done.insert d)

/-- Two ways can be gone one after the other, and what the first puts in need not be put in if the
second takes it out. -/
theorem trans : ∀ {s t u : List Char} {j k : Nat}, Edits s t j → Edits t u k →
    ∃ m ≤ j + k, Edits s u m
  | _, _, _, _, _, .done, .done => ⟨0, Nat.zero_le _, .done⟩
  -- What only one of them touches is not in the list between them.
  | _, _, _, _, _, h, .insert e h' =>
    let ⟨m, hm, hu⟩ := trans h h'
    ⟨m + 1, by omega, hu.insert e⟩
  | _, _, _, _, _, .remove c h, h' =>
    let ⟨m, hm, hu⟩ := trans h h'
    ⟨m + 1, by omega, hu.remove c⟩
  | _, _, _, _, _, .exchange c d h, .exchange _ e h' =>
    let ⟨_, hm, hu⟩ := trans h h'
    ⟨_, by grind, hu.exchange c e⟩
  | _, _, _, _, _, .exchange c _ h, .remove _ h' =>
    let ⟨m, hm, hu⟩ := trans h h'
    ⟨m + 1, by omega, hu.remove c⟩
  | _, _, _, _, _, .insert _ h, .exchange _ e h' =>
    let ⟨m, hm, hu⟩ := trans h h'
    ⟨m + 1, by omega, hu.insert e⟩
  | _, _, _, _, _, .insert _ h, .remove _ h' =>
    let ⟨m, hm, hu⟩ := trans h h'
    ⟨m, by omega, hu⟩
termination_by s t u => s.length + t.length + u.length

end Edits

/-! ### The least cost -/

section Least
variable {s t : List Char} {k : Nat}

/-- The recursion finds a way. -/
theorem edits_levenshtein (s t : List Char) : Edits s t (levenshtein s t) := by
  fun_induction levenshtein s t with
  | case1 t => exact .insertAll t
  | case2 s => exact .removeAll s
  | case3 s c t ih => exact ih.keep c
  | case4 c s d t hne ihs iht ih =>
    have hleast (a b m : Nat) : 1 + min (min a b) m = a + 1 ∨ 1 + min (min a b) m = b + 1 ∨
        1 + min (min a b) m = m + 1 := by omega
    rcases hleast (levenshtein s (d :: t)) (levenshtein (c :: s) t) (levenshtein s t) with h | h | h
    · exact h ▸ ihs.remove c
    · exact h ▸ iht.insert d
    · rw [h]
      simpa [hne] using ih.exchange c d

/-- There is none that costs less. -/
theorem levenshtein_le (h : Edits s t k) : levenshtein s t ≤ k := by
  induction h with
  | done =>
    rw [levenshtein_nil_left]
    rfl
  | exchange c d _ ih =>
    rw [levenshtein_cons_cons]
    omega
  | remove c _ ih => exact (levenshtein_cons_left_le c _ _).trans (Nat.add_le_add_right ih 1)
  | insert d _ ih => exact (levenshtein_cons_right_le d _ _).trans (Nat.add_le_add_right ih 1)

theorem levenshtein_eq_zero_iff : levenshtein s t = 0 ↔ s = t := by
  constructor
  · exact (edits_levenshtein s t).eq_of_zero
  · rintro rfl
    exact Nat.le_zero.1 (levenshtein_le (.refl s))

theorem levenshtein_triangle (s t u : List Char) :
    levenshtein s u ≤ levenshtein s t + levenshtein t u := by
  obtain ⟨m, hm, h⟩ := (edits_levenshtein s t).trans (edits_levenshtein t u)
  exact (levenshtein_le h).trans hm

theorem levenshtein_reverse (s t : List Char) :
    levenshtein s.reverse t.reverse = levenshtein s t := by
  refine le_antisymm (levenshtein_le (edits_levenshtein s t).reverse) (levenshtein_le ?_)
  simpa using (edits_levenshtein s.reverse t.reverse).reverse

/-- The recursion at the ends of the lists. -/
theorem levenshtein_concat_concat (c d : Char) (s t : List Char) :
    levenshtein (s ++ [c]) (t ++ [d]) = min (min (levenshtein s (t ++ [d]) + 1)
      (levenshtein (s ++ [c]) t + 1)) (levenshtein s t + if c = d then 0 else 1) := by
  have h := levenshtein_cons_cons c d s.reverse t.reverse
  simp only [← List.reverse_concat', levenshtein_reverse] at h
  exact h

end Least

end Lending.Text
