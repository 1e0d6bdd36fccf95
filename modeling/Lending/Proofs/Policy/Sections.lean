import Lending.Policy.Source
import Lending.Proofs.Text.Lines

/-! The definitions of a policy text, each in a document of its own.

Dividers are put in front of definitions and nowhere else, and no line is lost (`Divides`). A
divider is missing in one case (`Hides`): the lines before a definition end in an indented `---`,
which is taken for a divider of the author's and divides nothing. `definitions_separated_iff` is
that there is no other case. -/
namespace Lending.Policy
open Text (bare)

/-- A line that divides documents: it begins with the mark. -/
def isDivider (line : String) : Bool :=
  startsWith divider.toList line.toList

/-- `out` is `lines` with dividers put in front of definitions. -/
inductive Divides : List String → List String → Prop
  | nil : Divides [] []
  | keep {lines out : List String} (line : String) (h : Divides lines out) :
      Divides (line :: lines) (line :: out)
  | put {lines out : List String} {line : String} (start : startsDefinition line = true)
      (h : Divides lines out) : Divides (line :: lines) (divider :: line :: out)

/-- Lines in front of a definition, from the first one on. -/
def InFront (lines between : List String) : Prop :=
  ∃ next after, lines = between ++ next :: after ∧ startsDefinition next = true

/-- Lines between two definitions. -/
def Between (lines between : List String) : Prop :=
  ∃ before first rest, lines = before ++ first :: rest ∧ startsDefinition first = true ∧
    InFront rest between

/-- Between any two definitions there is a divider. -/
def Separated (lines : List String) : Prop :=
  ∀ between, Between lines between → ∃ line ∈ between, isDivider line = true

/-- Lines without a definition and without a divider, of which the last that says something is an
indented `---`. -/
structure Hides (between : List String) : Prop where
  plain : ∀ line ∈ between, startsDefinition line = false ∧ isDivider line = false
  indented : ∃ before line after, between = before ++ line :: after ∧
    Text.trim line = divider ∧ ∀ silent ∈ after, isSilent silent = true

/-- The text that is read for a policy text. -/
def prepared (s : String) : String :=
  ofLines (divided (Text.lines s))

/-- The documents of a policy text are those of the text that is read for it. -/
theorem documents_eq (s : String) : documents s =
    (Yaml.readAll (prepared s)).map fun ds => ds.filter (!Document.isNull ·) :=
  rfl

/-! ### Line by line -/

theorem not_inFront_nil (between : List String) : ¬ InFront [] between := by
  rintro ⟨next, after, h, _⟩
  cases between <;> cases h

theorem inFront_cons {line : String} {rest between : List String} :
    InFront (line :: rest) between ↔ (between = [] ∧ startsDefinition line = true) ∨
      ∃ between', between = line :: between' ∧ InFront rest between' := by
  constructor
  · rintro ⟨next, after, h, hnext⟩
    cases between with
    | nil =>
      cases h
      exact .inl ⟨rfl, hnext⟩
    | cons b between =>
      cases h
      exact .inr ⟨between, rfl, next, after, rfl, hnext⟩
  · rintro (⟨rfl, hline⟩ | ⟨between', rfl, next, after, rfl, hnext⟩)
    · exact ⟨line, rest, rfl, hline⟩
    · exact ⟨next, after, rfl, hnext⟩

theorem not_between_nil (between : List String) : ¬ Between [] between := by
  rintro ⟨before, first, rest, h, _⟩
  cases before <;> cases h

theorem between_cons {line : String} {rest between : List String} :
    Between (line :: rest) between ↔
      (startsDefinition line = true ∧ InFront rest between) ∨ Between rest between := by
  constructor
  · rintro ⟨before, first, after, h, hfirst, hrest⟩
    cases before with
    | nil =>
      cases h
      exact .inl ⟨hfirst, hrest⟩
    | cons b before =>
      cases h
      exact .inr ⟨before, first, after, rfl, hfirst, hrest⟩
  · rintro (⟨hline, hrest⟩ | ⟨before, first, after, rfl, hfirst, hafter⟩)
    · exact ⟨[], line, rest, rfl, hline, hrest⟩
    · exact ⟨line :: before, first, after, rfl, hfirst, hafter⟩

/-- No definition comes before a divider. -/
def Shielded (lines : List String) : Prop :=
  ∀ between, InFront lines between → ∃ line ∈ between, isDivider line = true

theorem shielded_cons {line : String} {rest : List String} :
    Shielded (line :: rest) ↔
      startsDefinition line = false ∧ (isDivider line = true ∨ Shielded rest) := by
  constructor
  · intro h
    constructor
    · refine Bool.eq_false_iff.2 fun hline => ?_
      obtain ⟨_, hmem, _⟩ := h [] (inFront_cons.2 (.inl ⟨rfl, hline⟩))
      cases hmem
    · by_cases hdivider : isDivider line = true
      · exact .inl hdivider
      · refine .inr fun between hbetween => ?_
        have hcons := h (line :: between) (inFront_cons.2 (.inr ⟨between, rfl, hbetween⟩))
        simpa [hdivider] using hcons
  · rintro ⟨hline, hrest⟩ between hbetween
    rcases inFront_cons.1 hbetween with ⟨_, hstart⟩ | ⟨between', rfl, hbetween'⟩
    · rw [hline] at hstart
      cases hstart
    · rcases hrest with hdivider | hrest
      · exact ⟨line, List.mem_cons_self .., hdivider⟩
      · obtain ⟨d, hd, hdivider⟩ := hrest between' hbetween'
        exact ⟨d, List.mem_cons_of_mem _ hd, hdivider⟩

theorem separated_cons {line : String} {rest : List String} :
    Separated (line :: rest) ↔
      (startsDefinition line = true → Shielded rest) ∧ Separated rest := by
  simp only [Separated, Shielded, between_cons]
  constructor
  · intro h
    exact ⟨fun hline between hbetween => h between (.inl ⟨hline, hbetween⟩),
      fun between hbetween => h between (.inr hbetween)⟩
  · rintro ⟨hline, hrest⟩ between (⟨hstart, hbetween⟩ | hbetween)
    · exact hline hstart between hbetween
    · exact hrest between hbetween

/-! ### The author's dividers -/

theorem startsDefinition_divider : startsDefinition divider = false := by decide

theorem isDivider_divider : isDivider divider = true := by decide

/-- A definition is no divider, and neither blank nor a comment. -/
theorem dividedAfter_definition {line : String} (h : startsDefinition line = true) (after : Bool) :
    dividedAfter after line = false := by
  have hkeys :
      (definitionKeys.any fun key => startsWith key.toList (Text.trim line).toList) = true :=
    (Bool.and_eq_true_iff.1 h).2
  have htrim : Text.trim line ≠ divider := by
    intro heq
    rw [heq] at hkeys
    exact absurd hkeys (by decide)
  have hblank : Text.isBlankText line = false := by
    refine Bool.eq_false_iff.2 fun hblank => ?_
    rw [Text.toList_trim_of_blank hblank] at hkeys
    exact absurd hkeys (by decide)
  have hcomment : startsWith ['#'] (Text.trim line).toList = false := by
    refine Bool.eq_false_iff.2 fun hcomment => ?_
    obtain ⟨rest, hrest⟩ := List.isPrefixOf_iff_prefix.1 hcomment
    rw [← hrest] at hkeys
    cases hkeys
  rw [dividedAfter, if_neg htrim, isSilent, hblank, hcomment]
  exact Bool.and_false _

theorem dividedAfter_eq_true_iff {after : Bool} {line : String} :
    dividedAfter after line = true ↔
      Text.trim line = divider ∨ (after = true ∧ isSilent line = true) := by
  unfold dividedAfter
  split <;> simp_all

/-- Lines leave the impression of a divider if the last one that says something looks like one. -/
theorem foldl_dividedAfter_iff {after : Bool} {lines : List String} :
    lines.foldl dividedAfter after = true ↔
      (∃ before line rest, lines = before ++ line :: rest ∧ Text.trim line = divider ∧
        ∀ silent ∈ rest, isSilent silent = true) ∨
      (after = true ∧ ∀ silent ∈ lines, isSilent silent = true) := by
  induction lines generalizing after with
  | nil => simp
  | cons l lines ih =>
    rw [List.foldl_cons, ih, dividedAfter_eq_true_iff, List.forall_mem_cons]
    constructor
    · rintro (⟨before, line, rest, rfl, htrim, hrest⟩ | ⟨htrim | ⟨hafter, hl⟩, hlines⟩)
      · exact .inl ⟨l :: before, line, rest, rfl, htrim, hrest⟩
      · exact .inl ⟨[], l, lines, rfl, htrim, hlines⟩
      · exact .inr ⟨hafter, hl, hlines⟩
    · rintro (⟨before, line, rest, h, htrim, hrest⟩ | ⟨hafter, hl, hlines⟩)
      · cases before with
        | nil =>
          cases h
          exact .inr ⟨.inl htrim, hrest⟩
        | cons b before =>
          cases h
          exact .inl ⟨before, line, rest, rfl, htrim, hrest⟩
      · exact .inr ⟨.inr ⟨hafter, hl⟩, hlines⟩

/-- Lines that hide the next definition, where `after` tells whether a divider came before them. -/
structure HidesFrom (after : Bool) (between : List String) : Prop where
  plain : ∀ line ∈ between, startsDefinition line = false ∧ isDivider line = false
  divided : between.foldl dividedAfter after = true

theorem hidesFrom_false_iff {between : List String} : HidesFrom false between ↔ Hides between := by
  have hfold : between.foldl dividedAfter false = true ↔
      ∃ before line after, between = before ++ line :: after ∧ Text.trim line = divider ∧
        ∀ silent ∈ after, isSilent silent = true := by
    rw [foldl_dividedAfter_iff]
    simp only [Bool.false_eq_true, false_and, or_false]
  exact ⟨fun h => ⟨h.plain, hfold.1 h.divided⟩, fun h => ⟨h.plain, hfold.2 h.indented⟩⟩

theorem hidesFrom_cons {after : Bool} {line : String} {between : List String} :
    HidesFrom after (line :: between) ↔ startsDefinition line = false ∧ isDivider line = false ∧
      HidesFrom (dividedAfter after line) between := by
  constructor
  · rintro ⟨hplain, hdivided⟩
    obtain ⟨⟨hstart, hdivider⟩, hplain⟩ := List.forall_mem_cons.1 hplain
    rw [List.foldl_cons] at hdivided
    exact ⟨hstart, hdivider, hplain, hdivided⟩
  · rintro ⟨hstart, hdivider, hplain, hdivided⟩
    refine ⟨List.forall_mem_cons.2 ⟨⟨hstart, hdivider⟩, hplain⟩, ?_⟩
    rw [List.foldl_cons]
    exact hdivided

/-- The next definition is hidden. -/
def NextHidden (after : Bool) (lines : List String) : Prop :=
  ∃ between, InFront lines between ∧ HidesFrom after between

theorem nextHidden_cons {after : Bool} {line : String} {rest : List String} :
    NextHidden after (line :: rest) ↔ (startsDefinition line = true ∧ after = true) ∨
      (startsDefinition line = false ∧ isDivider line = false ∧
        NextHidden (dividedAfter after line) rest) := by
  constructor
  · rintro ⟨between, hbetween, hhides⟩
    rcases inFront_cons.1 hbetween with ⟨rfl, hline⟩ | ⟨between', rfl, hbetween'⟩
    · exact .inl ⟨hline, hhides.divided⟩
    · obtain ⟨hstart, hdivider, hhides⟩ := hidesFrom_cons.1 hhides
      exact .inr ⟨hstart, hdivider, between', hbetween', hhides⟩
  · rintro (⟨hline, hafter⟩ | ⟨hstart, hdivider, between, hbetween, hhides⟩)
    · exact ⟨[], inFront_cons.2 (.inl ⟨rfl, hline⟩), List.forall_mem_nil _, hafter⟩
    · exact ⟨line :: between, inFront_cons.2 (.inr ⟨between, rfl, hbetween⟩),
        hidesFrom_cons.2 ⟨hstart, hdivider, hhides⟩⟩

/-! ### The dividers that are put in -/

theorem divides_dividedFrom (seen after : Bool) (lines : List String) :
    Divides lines (dividedFrom seen after lines) := by
  induction lines generalizing seen after with
  | nil => exact .nil
  | cons line rest ih =>
    rw [dividedFrom]
    split
    · rename_i hput
      have hstart : startsDefinition line = true :=
        (Bool.and_eq_true_iff.1 (Bool.and_eq_true_iff.1 hput).1).1
      exact .put hstart (ih _ _)
    · exact .keep line (ih _ _)

/-- After a definition, the next one is behind a divider unless it is hidden. -/
theorem shielded_dividedFrom (after : Bool) (lines : List String) :
    Shielded (dividedFrom true after lines) ↔ ¬ NextHidden after lines := by
  induction lines generalizing after with
  | nil =>
    have hnone : ¬ NextHidden after [] := fun ⟨between, hbetween, _⟩ =>
      not_inFront_nil between hbetween
    exact iff_of_true (fun between hbetween => absurd hbetween (not_inFront_nil between)) hnone
  | cons line rest ih =>
    rw [nextHidden_cons, dividedFrom]
    cases hstart : startsDefinition line with
    | true =>
      cases after with
      | true => simp [shielded_cons, hstart]
      | false => simp [shielded_cons, startsDefinition_divider, isDivider_divider]
    | false => simp [shielded_cons, hstart, ih, imp_iff_or_not, or_comm]

theorem separated_dividedFrom (seen after : Bool) (lines : List String) :
    Separated (dividedFrom seen after lines) ↔
      ¬ ∃ between, Between lines between ∧ Hides between := by
  induction lines generalizing seen after with
  | nil =>
    refine iff_of_true (fun between hbetween => absurd hbetween (not_between_nil between)) ?_
    rintro ⟨between, hbetween, _⟩
    exact not_between_nil between hbetween
  | cons line rest ih =>
    have hsplit : (∃ between, Between (line :: rest) between ∧ Hides between) ↔
        (startsDefinition line = true ∧ NextHidden false rest) ∨
          ∃ between, Between rest between ∧ Hides between := by
      simp only [between_cons, NextHidden, hidesFrom_false_iff, or_and_right, exists_or, and_assoc,
        exists_and_left]
    rw [hsplit, not_or, ← ih (seen || startsDefinition line) (dividedAfter after line), dividedFrom]
    -- a divider in front of the line starts nothing
    have hput (lines : List String) : Separated (divider :: lines) ↔ Separated lines := by
      simp [separated_cons, startsDefinition_divider]
    have hline : Separated (line :: dividedFrom (seen || startsDefinition line)
        (dividedAfter after line) rest) ↔
        ¬ (startsDefinition line = true ∧ NextHidden false rest) ∧
          Separated (dividedFrom (seen || startsDefinition line) (dividedAfter after line) rest) := by
      rw [separated_cons, not_and]
      refine and_congr_left fun _ => imp_congr_right fun hstart => ?_
      rw [hstart, Bool.or_true, dividedAfter_definition hstart, shielded_dividedFrom]
    split
    · rw [hput, hline]
    · exact hline

/-! ### The lines of the text that is read -/

theorem startsWith_bare {key : List Char} (hkey : '\r' ∉ key) (line : String) :
    startsWith key (bare line).toList = startsWith key line.toList := by
  rw [Text.toList_bare]
  exact Text.isPrefixOf_bareChars hkey _

theorem startsDefinition_bare (line : String) :
    startsDefinition (bare line) = startsDefinition line := by
  rw [startsDefinition, startsDefinition, Text.trim_bare, startsWith_bare (by decide),
    startsWith_bare (by decide)]

theorem isDivider_bare (line : String) : isDivider (bare line) = isDivider line :=
  startsWith_bare (by decide) line

theorem shielded_map_bare (lines : List String) : Shielded (lines.map bare) ↔ Shielded lines := by
  induction lines with
  | nil => rfl
  | cons line rest ih =>
    rw [List.map_cons, shielded_cons, shielded_cons, startsDefinition_bare, isDivider_bare, ih]

theorem separated_map_bare (lines : List String) :
    Separated (lines.map bare) ↔ Separated lines := by
  induction lines with
  | nil => rfl
  | cons line rest ih =>
    rw [List.map_cons, separated_cons, separated_cons, startsDefinition_bare, shielded_map_bare, ih]

theorem Divides.forall_mem {lines out : List String} (h : Divides lines out) {P : String → Prop}
    (hdivider : P divider) (hlines : ∀ line ∈ lines, P line) : ∀ line ∈ out, P line := by
  induction h with
  | nil => exact hlines
  | keep line _ ih =>
    obtain ⟨hline, hrest⟩ := List.forall_mem_cons.1 hlines
    exact List.forall_mem_cons.2 ⟨hline, ih hrest⟩
  | put start _ ih =>
    obtain ⟨hline, hrest⟩ := List.forall_mem_cons.1 hlines
    exact List.forall_mem_cons.2 ⟨hdivider, List.forall_mem_cons.2 ⟨hline, ih hrest⟩⟩

theorem lines_prepared (s : String) :
    Text.lines (prepared s) = (divided (Text.lines s)).map bare :=
  Text.lines_ofLines ((divides_dividedFrom false false _).forall_mem (by decide)
    (Text.newline_not_mem_lines s))

/-- **Definitions are in documents of their own, unless one is overlooked.** Every line of a policy
text is read, with dividers put in front of definitions and nothing else; and there is a divider
between any two definitions of what is read exactly if no lines between two definitions of the text
end in an indented `---`, with neither a divider nor a definition among them. -/
theorem definitions_separated_iff (s : String) :
    (∃ out, Divides (Text.lines s) out ∧ prepared s = ofLines out) ∧
      (Separated (Text.lines (prepared s)) ↔
        ¬ ∃ between, Between (Text.lines s) between ∧ Hides between) := by
  refine ⟨⟨_, divides_dividedFrom false false _, rfl⟩, ?_⟩
  rw [lines_prepared, separated_map_bare]
  exact separated_dividedFrom false false (Text.lines s)

/-- An assessment with the mark for a name, and a catalog. -/
def markedAssessment : String :=
  "assessment:\n id: short\n name: |\n  ---\ncatalog: {}\n"

/-- The name is taken for a divider and none is put in: of the one document that both definitions
are in the catalog is read, and the assessment is dropped without an error. -/
theorem overlooked_assessment :
    ¬ Separated (Text.lines (prepared markedAssessment)) ∧
      (Bundle.ofText markedAssessment).outcome.toOption.map
        (fun b => (b.catalog.isSome, b.assessments.map Assessment.id)) = some (true, []) := by
  constructor
  · have hlines : Text.lines (prepared markedAssessment) =
        ["assessment:", " id: short", " name: |", "  ---", "catalog: {}"] := by decide +kernel
    have hbetween : Between (Text.lines (prepared markedAssessment))
        [" id: short", " name: |", "  ---"] := by
      rw [hlines]
      exact between_cons.2 (.inl ⟨by decide, "catalog: {}", [], rfl, by decide⟩)
    intro hseparated
    obtain ⟨line, hline, hdivider⟩ := hseparated _ hbetween
    have hnone : ∀ line ∈ [" id: short", " name: |", "  ---"], isDivider line = false := by decide
    rw [hnone line hline] at hdivider
    cases hdivider
  · decide +kernel

end Lending.Policy
