import Lending.Policy.Sections
import Mathlib.Data.List.TakeWhile

/-! Lines put together to a text and taken apart again.

Lines that each get an end come back as they were (`lines_ofLines`), but for a carriage return at
the end of a line, which then belongs to the end. Nothing that is looked at after trimming changes
by that. -/
namespace Lending.Text

/-! ### Carriage returns -/

/-- The characters of a line without one carriage return at the end. -/
def bareChars : List Char → List Char
  | [] => []
  | ['\r'] => []
  | c :: rest => c :: bareChars rest

def bare (line : String) : String :=
  String.ofList (bareChars line.toList)

@[simp] theorem toList_bare (line : String) : (bare line).toList = bareChars line.toList :=
  String.toList_ofList

theorem bareChars_append (cs : List Char) :
    cs = bareChars cs ∨ cs = bareChars cs ++ ['\r'] := by
  fun_induction bareChars cs with
  | case1 => exact .inl rfl
  | case2 => exact .inr rfl
  | case3 c rest _ ih =>
    rcases ih with h | h
    · exact .inl (congrArg (c :: ·) h)
    · exact .inr (congrArg (c :: ·) h)

/-- A carriage return at the end is no part of what is not one. -/
theorem isPrefixOf_bareChars {key : List Char} (hkey : '\r' ∉ key) (cs : List Char) :
    key.isPrefixOf (bareChars cs) = key.isPrefixOf cs := by
  induction key generalizing cs with
  | nil => simp
  | cons k key ih =>
    have hk : '\r' ≠ k := List.ne_of_not_mem_cons hkey
    have hrest : '\r' ∉ key := List.not_mem_of_not_mem_cons hkey
    cases cs with
    | nil => rfl
    | cons c rest =>
      by_cases hlone : c = '\r' ∧ rest = []
      · obtain ⟨rfl, rfl⟩ := hlone
        simp [bareChars, List.isPrefixOf, hk.symm]
      · rw [bareChars, List.isPrefixOf, List.isPrefixOf, ih hrest]
        exact fun hc hnil => hlone ⟨hc, hnil⟩

/-! ### Trimming -/

theorem trimChars_append_blank {c : Char} (hc : isBlank c = true) (cs : List Char) :
    trimChars (cs ++ [c]) = trimChars cs := by
  rw [trimChars, trimChars, List.dropWhile_append]
  cases hdropped : cs.dropWhile isBlank with
  | nil => simp [hc]
  | cons d rest => simp [hc]

theorem trim_bare (line : String) : trim (bare line) = trim line := by
  have hreturn : isBlank '\r' = true := by decide
  rw [trim, trim, toList_bare]
  rcases bareChars_append line.toList with h | h
  · rw [← h]
  · rw [h, trimChars_append_blank hreturn, ← h]

theorem toList_trim_of_blank {line : String} (h : isBlankText line = true) :
    (trim line).toList = [] := by
  have hdropped : line.toList.dropWhile isBlank = [] :=
    List.dropWhile_eq_nil_iff.2 (List.all_eq_true.1 h)
  rw [trim, String.toList_ofList, trimChars, hdropped]
  rfl

/-! ### Lines -/

theorem newline_not_mem_lineChars (cs : List Char) : ∀ line ∈ lineChars cs, '\n' ∉ line := by
  fun_induction lineChars cs with
  | case1 => simp
  | case2 rest ih => simpa using ih
  | case3 rest ih => simpa using ih
  | case4 c rest _ hc hlines ih => simp [Ne.symm hc]
  | case5 c rest _ hc line lines hlines ih =>
    rw [hlines, List.forall_mem_cons] at ih
    refine List.forall_mem_cons.2 ⟨?_, ih.2⟩
    exact List.not_mem_cons_of_ne_of_not_mem (Ne.symm hc) ih.1

/-- A line is what stands before its end. -/
theorem lineChars_append {cs : List Char} (hcs : '\n' ∉ cs) (rest : List Char) :
    lineChars (cs ++ '\n' :: rest) = bareChars cs :: lineChars rest := by
  fun_induction bareChars cs with
  | case1 => rfl
  | case2 => rfl
  | case3 c cs hlone ih =>
    have hc : '\n' ≠ c := List.ne_of_not_mem_cons hcs
    have hrest : '\n' ∉ cs := List.not_mem_of_not_mem_cons hcs
    rw [List.cons_append, lineChars, ih hrest]
    -- the line end does not begin before the line feed
    · intro tail hreturn htail
      cases cs with
      | nil => exact hlone hreturn rfl
      | cons d ds =>
        rw [List.cons_append, List.cons.injEq] at htail
        exact List.ne_of_not_mem_cons hrest htail.1.symm
    · exact hc.symm

open Policy (ofLines)

theorem toList_ofLines (lines : List String) :
    (ofLines lines).toList = lines.flatMap fun line => line.toList ++ ['\n'] := by
  simp [ofLines, String.toList_join, List.flatMap_map]

/-- **Lines that each get an end come back**, but for a carriage return that stood before it. -/
theorem lines_ofLines {ls : List String} (h : ∀ line ∈ ls, '\n' ∉ line.toList) :
    lines (ofLines ls) = ls.map bare := by
  rw [lines, toList_ofLines]
  induction ls with
  | nil => rfl
  | cons line rest ih =>
    obtain ⟨hline, hrest⟩ := List.forall_mem_cons.1 h
    rw [List.flatMap_cons, List.append_assoc, List.singleton_append, lineChars_append hline,
      List.map_cons, List.map_cons, ih hrest]
    rfl

theorem newline_not_mem_lines (s : String) : ∀ line ∈ lines s, '\n' ∉ line.toList := by
  intro line hline
  obtain ⟨cs, hcs, rfl⟩ := List.mem_map.1 hline
  rw [String.toList_ofList]
  exact newline_not_mem_lineChars s.toList cs hcs

end Lending.Text
