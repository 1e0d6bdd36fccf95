import Mathlib.Data.List.Nodup
import Lending.Proofs.Comparison
import Lending.Proofs.Number.Rank
import Lending.Proofs.Text.Lines
import Lending.Tree.Branching

/-! Numeric bands.

A node with bands sends a number to the first declared band that holds it, and any other value to
the first catch-all branch (`FallsIn`). The bands between increasing numbers hold every finite
number exactly once (`filter_cutFrom`). So where the branches with ends are these bands (`CutAt`),
the order of declaration says nothing, and branches without ends, which hold no number, stand
anywhere. -/
namespace Lending
open Branching

/-! ### BandEnds -/

/-- The ends of a band. The lower one belongs to it and the upper one does not; an end that is
not there is no limit. -/
structure BandEnds where
  low : Option Float
  high : Option Float
  deriving DecidableEq

/-- The number lies between the ends. -/
def BandEnds.Hold (e : BandEnds) (x : Float) : Prop :=
  (∀ low ∈ e.low, low ≤ x) ∧ ∀ high ∈ e.high, x < high

instance (e : BandEnds) (x : Float) : Decidable (e.Hold x) :=
  inferInstanceAs (Decidable ((∀ low ∈ e.low, low ≤ x) ∧ ∀ high ∈ e.high, x < high))

/-- The bands between numbers, above a lower end: each ends where the next one starts, and the
last has no upper end. -/
def cutFrom (low : Option Float) : List Float → List BandEnds
  | [] => [⟨low, none⟩]
  | c :: rest => ⟨low, some c⟩ :: cutFrom (some c) rest

section Cut
variable {low : Option Float} {cuts : List Float} {x c : Float} {e : BandEnds}

theorem low_of_mem_cutFrom (h : e ∈ cutFrom low cuts) :
    e.low = low ∨ ∃ c ∈ cuts, e.low = some c := by
  induction cuts generalizing low with
  | nil =>
    cases List.mem_singleton.1 h
    exact .inl rfl
  | cons c rest ih =>
    rcases List.mem_cons.1 h with rfl | hrest
    · exact .inl rfl
    · rcases ih hrest with hlow | ⟨d, hd, hlow⟩
      · exact .inr ⟨c, List.mem_cons_self .., hlow⟩
      · exact .inr ⟨d, List.mem_cons_of_mem c hd, hlow⟩

/-- At each of the numbers starts a band, and it holds that number. -/
theorem exists_low_mem_cutFrom (low : Option Float) (hcuts : cuts.Pairwise (· < ·))
    (hc : c ∈ cuts) : ∃ e ∈ cutFrom low cuts, e.low = some c ∧ ∀ high ∈ e.high, c < high := by
  induction cuts generalizing low with
  | nil => cases hc
  | cons d rest ih =>
    rw [List.pairwise_cons] at hcuts
    rcases List.mem_cons.1 hc with rfl | hrest
    · cases rest with
      | nil => exact ⟨⟨some c, none⟩, by simp [cutFrom], rfl, by simp⟩
      | cons d rest =>
        exact ⟨⟨some c, some d⟩, by simp [cutFrom], rfl, by simpa using hcuts.1 d⟩
    · obtain ⟨e, he, hends⟩ := ih (some d) hcuts.2 hrest
      exact ⟨e, List.mem_cons_of_mem _ he, hends⟩

/-- No band that starts at `c` or above holds a number below `c`. -/
theorem not_hold_of_lt (hcuts : ∀ d ∈ cuts, c < d) (hlt : x < c) (h : e ∈ cutFrom (some c) cuts) :
    ¬ e.Hold x := by
  intro hhold
  rcases low_of_mem_cutFrom h with hstart | ⟨d, hd, hstart⟩
  · exact Number.not_lt_of_le (hhold.1 c hstart) hlt
  · have hcd := Number.le_of_lt (hcuts d hd)
    exact Number.not_lt_of_le (hhold.1 d hstart) (Number.lt_of_lt_of_le hlt hcd)

/-- **The bands between increasing numbers hold a number once**, if it is not below them all. -/
theorem filter_cutFrom (hx : x.isFinite = true) (hfinite : ∀ c ∈ cuts, c.isFinite = true)
    (hcuts : cuts.Pairwise (· < ·)) (hlow : ∀ l ∈ low, l ≤ x) :
    ∃ e, (cutFrom low cuts).filter (·.Hold x) = [e] := by
  induction cuts generalizing low with
  | nil => exact ⟨⟨low, none⟩, by simpa [cutFrom, BandEnds.Hold] using hlow⟩
  | cons c rest ih =>
    rw [List.forall_mem_cons] at hfinite
    rw [List.pairwise_cons] at hcuts
    rcases Number.lt_or_le_of_finite hx hfinite.1 with hlt | hle
    case inl =>
      have hnone : (cutFrom (some c) rest).filter (·.Hold x) = [] :=
        List.filter_eq_nil_iff.2 fun e he => by simpa using not_hold_of_lt hcuts.1 hlt he
      refine ⟨⟨low, some c⟩, ?_⟩
      rw [cutFrom, List.filter_cons_of_pos (by simpa [BandEnds.Hold, hlt] using hlow), hnone]
    case inr =>
      have hpast : ¬ (⟨low, some c⟩ : BandEnds).Hold x :=
        fun hhold => Number.not_lt_of_le hle (hhold.2 c rfl)
      rw [cutFrom, List.filter_cons_of_neg (by simpa using hpast)]
      exact ih hfinite.2 hcuts.2 (by simpa using hle)

end Cut

/-! ### Bands among branches -/

namespace Branch

/-- A branch with an end is a band. -/
def isBand (b : Branch) : Bool :=
  b.min.isSome || b.max.isSome

def ends (b : Branch) : BandEnds :=
  ⟨b.min, b.max⟩

/-- The branch is a band, and the number lies in it. -/
def Holds (b : Branch) (x : Float) : Prop :=
  b.isBand = true ∧ b.ends.Hold x

instance (b : Branch) (x : Float) : Decidable (b.Holds x) :=
  inferInstanceAs (Decidable (b.isBand = true ∧ b.ends.Hold x))

theorem contains_eq (b : Branch) (x : Float) : b.contains x = decide (b.Holds x) := by
  rw [Bool.eq_iff_iff, decide_eq_true_iff]
  cases hmin : b.min <;> cases hmax : b.max <;>
    simp [contains, Holds, BandEnds.Hold, isBand, ends, hmin, hmax]

end Branch

/-- The branches with ends are the bands between numbers, in any order. -/
structure CutAt (cuts : List Float) (branches : List Branch) : Prop where
  nonempty : cuts ≠ []
  finite : ∀ c ∈ cuts, c.isFinite = true
  increasing : cuts.Pairwise (· < ·)
  bands : ((branches.filter Branch.isBand).map Branch.ends).Perm (cutFrom none cuts)
  labels : ((branches.filter Branch.isBand).map Branch.label).Nodup

section Branches
variable {cuts : List Float} {branches : List Branch} {x : Float} {b d : Branch}

theorem filter_holds (branches : List Branch) (x : Float) : branches.filter (·.Holds x) =
    (branches.filter Branch.isBand).filter (·.ends.Hold x) := by
  rw [List.filter_filter]
  refine List.filter_congr fun b _ => Bool.eq_iff_iff.2 ?_
  rw [decide_eq_true_iff, Bool.and_eq_true, decide_eq_true_iff]
  exact and_comm

theorem CutAt.perm_ends (h : CutAt cuts branches) (x : Float) :
    ((branches.filter (·.Holds x)).map Branch.ends).Perm
      ((cutFrom none cuts).filter (·.Hold x)) := by
  have hfilter := h.bands.filter (·.Hold x)
  rw [List.filter_map] at hfilter
  rw [filter_holds]
  exact hfilter

/-- One of the branches holds the number, and it is at one place. -/
theorem CutAt.exists_only (h : CutAt cuts branches) (hx : x.isFinite = true) :
    ∃ b, branches.filter (·.Holds x) = [b] := by
  have hunbounded : ∀ l ∈ (none : Option Float), l ≤ x := by simp
  obtain ⟨e, he⟩ := filter_cutFrom hx h.finite h.increasing hunbounded
  have hperm := h.perm_ends x
  rw [he, List.perm_singleton, List.map_eq_singleton_iff] at hperm
  exact hperm.imp fun _ => And.left

/-- A number at which the line is cut belongs to the band that starts there. -/
theorem CutAt.min_eq (h : CutAt cuts branches) (honly : branches.filter (·.Holds x) = [b])
    {c : Float} (hc : c ∈ cuts) (hxc : (x == c) = true) : b.min = some c := by
  obtain ⟨e, he, hlow, hhigh⟩ := exists_low_mem_cutFrom none h.increasing hc
  obtain ⟨hle, hge⟩ := Number.le_of_beq hxc
  have hhold : e.Hold x :=
    ⟨by simpa [hlow] using hge, fun high hh => Number.lt_of_le_of_lt hle (hhigh high hh)⟩
  have hmem : e ∈ (branches.filter (·.Holds x)).map Branch.ends :=
    (h.perm_ends x).mem_iff.2 (List.mem_filter.2 ⟨he, decide_eq_true hhold⟩)
  rw [honly, List.map_singleton, List.mem_singleton] at hmem
  rw [← hlow, hmem]
  rfl

/-- Bands are told apart by their labels. -/
theorem CutAt.eq_of_label (h : CutAt cuts branches) (hb : b ∈ branches) (hband : b.isBand = true)
    (hd : d ∈ branches) (hband' : d.isBand = true) (hlabel : d.label = b.label) : d = b :=
  List.inj_on_of_nodup_map h.labels (List.mem_filter.2 ⟨hd, hband'⟩)
    (List.mem_filter.2 ⟨hb, hband⟩) hlabel

end Branches

/-! ### Decisions -/

/-- The label taken where no branch matches: that of the first catch-all branch, else `Other`. -/
inductive Unmatched (branches : List Branch) : String → Selection → Prop
  | catchAll {before after : List Branch} {b : Branch} (split : branches = before ++ b :: after)
      (catches : b.isCatchAll = true) (first : ∀ d ∈ before, d.isCatchAll = false) :
      Unmatched branches b.label .catchAll
  | other (none : ∀ b ∈ branches, b.isCatchAll = false) : Unmatched branches "Other" .other

/-- The label taken for a value that is there, whatever the bands are. -/
inductive FallsIn (branches : List Branch) (v : Value) : String → Selection → Prop
  | first {x : Float} {before after : List Branch} {b : Branch} (number : v.number? = some x)
      (split : branches = before ++ b :: after) (holds : b.Holds x)
      (first : ∀ d ∈ before, ¬ d.Holds x) : FallsIn branches v b.label .matched
  | beyond {x : Float} {label : String} {selection : Selection} (number : v.number? = some x)
      (beyond : ∀ b ∈ branches, ¬ b.Holds x) (rule : Unmatched branches label selection) :
      FallsIn branches v label selection
  | noNumber {label : String} {selection : Selection} (none : v.number? = none)
      (rule : Unmatched branches label selection) : FallsIn branches v label selection

/-- The decision goes to the one band that holds the number. -/
structure TakesOnly (cuts : List Float) (branches : List Branch) (x : Float) (s : PathStep)
    (b : Branch) : Prop where
  only : branches.filter (·.Holds x) = [b]
  branch : s.branch = b.label
  selection : s.selection = .matched
  /-- No other band has the label. -/
  named : ∀ d ∈ branches, d.isBand = true → d.label = s.branch → d = b
  /-- A number at which the line is cut belongs to the band above. -/
  boundary : ∀ c ∈ cuts, (x == c) = true → b.min = some c

/-- The node matches the attribute against bands: a numeric range, or a gate in either form. -/
inductive Node.HasBands (n : Node) (field : String) (branches : List Branch) : Prop
  | condition {spec : ConditionSpec} (kind : n.kind = .condition spec)
      (type : spec.type = .numericRange ∨ spec.type = .scorecardGate)
      (reads : spec.field = some field) (declares : spec.branches = branches)
  | gate {nullBranch : Option String} (kind : n.kind = .gate field branches nullBranch)

/-! ### Numbers that are read -/

/-- What is missing is no number. -/
theorem Value.isMissing_of_number? {v : Value} {x : Float} (h : v.number? = some x) :
    v.isMissing = false := by
  cases v with
  | text s =>
    by_contra hblank
    have htrim := Text.toList_trim_of_blank (Bool.of_not_eq_false hblank)
    have hnone : Number.ofText? (Text.trim s) = none := by
      rw [Number.ofText?, htrim]
      rfl
    simp [number?, hnone] at h
  | number y => rfl
  | _ => simp [number?] at h

/-! ### Lookups -/

namespace Branching
variable {cuts : List Float} {branches : List Branch} {v : Value} {x : Float} {b : Branch}

theorem unmatched_rule (branches : List Branch) :
    Unmatched branches (unmatched branches).1 (unmatched branches).2 := by
  unfold unmatched
  cases hfind : branches.find? Branch.isCatchAll with
  | some b =>
    obtain ⟨hb, before, after, hsplit, hbefore⟩ := List.find?_eq_some_iff_append.1 hfind
    exact .catchAll hsplit hb fun d hd => by simpa using hbefore d hd
  | none => exact .other fun b hb => by simpa using List.find?_eq_none.1 hfind b hb

theorem find?_contains (branches : List Branch) (x : Float) :
    branches.find? (·.contains x) = branches.find? (·.Holds x) := by
  simp only [Branch.contains_eq]

theorem bandChoice_rule (branches : List Branch) (v : Value) :
    FallsIn branches v (bandChoice branches v).1 (bandChoice branches v).2 := by
  unfold bandChoice
  cases hnumber : v.number? with
  | none => exact .noNumber hnumber (unmatched_rule branches)
  | some x =>
    rw [Option.bind_some, find?_contains]
    cases hfind : branches.find? (·.Holds x) with
    | some b =>
      obtain ⟨hb, before, after, hsplit, hbefore⟩ := List.find?_eq_some_iff_append.1 hfind
      exact .first hnumber hsplit (of_decide_eq_true hb) fun d hd => by simpa using hbefore d hd
    | none =>
      refine .beyond hnumber (fun b hb => ?_) (unmatched_rule branches)
      simpa using List.find?_eq_none.1 hfind b hb

theorem bandChoice_of_only (hnumber : v.number? = some x)
    (honly : branches.filter (·.Holds x) = [b]) :
    bandChoice branches v = (b.label, .matched) := by
  have hfind : branches.find? (·.Holds x) = some b := by
    rw [← List.head?_filter, honly, List.head?_cons]
  rw [bandChoice, hnumber, Option.bind_some, find?_contains, hfind]

/-! ### Nodes -/

/-- A node with bands looks up a value that is there. -/
theorem exists_step_of_hasBands {n : Node} {field : String} (h : n.HasBands field branches)
    {ctx : Context} (hv : ctx.lookup field = some v) : ∃ s, n.step? ctx = some s ∧
      (v.isMissing = false → (s.branch, s.selection) = bandChoice branches v) := by
  have hobserved : observed ctx field = v := by rw [observed, hv, Option.getD_some]
  have hgate : ∀ key nullBranch, v.isMissing = false →
      ((gateStep key field branches nullBranch ctx).branch,
        (gateStep key field branches nullBranch ctx).selection) = bandChoice branches v := by
    intro key nullBranch hthere
    simp [gateStep, hobserved, hthere]
  cases h with
  | @condition spec hkind htype hreads hdeclares =>
    refine ⟨spec.step n.key ctx, by rw [Node.step?, hkind], fun hthere => ?_⟩
    rcases htype with htype | htype
    · simp [ConditionSpec.step, htype, hreads, hdeclares, hobserved, hthere]
    · simpa [ConditionSpec.step, htype, hreads, hdeclares] using hgate n.key spec.nullBranch hthere
  | @gate nullBranch hkind =>
    exact ⟨gateStep n.key field branches nullBranch ctx, by rw [Node.step?, hkind],
      hgate n.key nullBranch⟩

theorem takesOnly_of_cutAt (h : CutAt cuts branches) {s : PathStep} (hnumber : v.number? = some x)
    (hs : (s.branch, s.selection) = bandChoice branches v) :
    ∃ b, TakesOnly cuts branches x s b := by
  obtain ⟨b, honly⟩ := h.exists_only (Value.isFinite_of_number? hnumber)
  rw [bandChoice_of_only hnumber honly, Prod.mk.injEq] at hs
  have hmem : b ∈ branches.filter (·.Holds x) := honly ▸ List.mem_singleton_self b
  obtain ⟨hb, hholds⟩ := List.mem_filter.1 hmem
  refine ⟨b, honly, hs.1, hs.2, fun d hd hband hlabel => ?_, fun c => h.min_eq honly⟩
  exact h.eq_of_label hb (of_decide_eq_true hholds).1 hd hband (hlabel.trans hs.1)

/-- **Numbers go to their bands.** A node with bands takes a value that is there to the first band
that holds it, or by the rule for values that no branch matches; and where the bands cut the line,
a number goes to the one that holds it, in whatever order the branches are declared. -/
theorem numbers_banded {n : Node} {field : String} (h : n.HasBands field branches)
    {ctx : Context} (hv : ctx.lookup field = some v) : ∃ s, n.step? ctx = some s ∧
      (v.isMissing = false → FallsIn branches v s.branch s.selection) ∧
      ∀ cuts, CutAt cuts branches → ∀ x, v.number? = some x →
        ∃ b, TakesOnly cuts branches x s b := by
  obtain ⟨s, hs, hchoice⟩ := exists_step_of_hasBands h hv
  refine ⟨s, hs, fun hthere => ?_, fun cuts hcut x hnumber => ?_⟩
  · have hrule := bandChoice_rule branches v
    rwa [← hchoice hthere] at hrule
  · exact takesOnly_of_cutAt hcut hnumber (hchoice (Value.isMissing_of_number? hnumber))

/-- Bands for a score, in no order, and a branch for what is no number among them. -/
def scoreBranches : List Branch :=
  [ { Branch.ofLabel "High" with min := some 700 },
    .ofLabel "all_others",
    { Branch.ofLabel "Low" with max := some 550 },
    { Branch.ofLabel "Middle" with min := some 550, max := some 700 } ]

theorem cutAt_scoreBranches : CutAt [550, 700] scoreBranches where
  nonempty := List.cons_ne_nil _ _
  finite := by decide +kernel
  increasing := by decide +kernel
  bands := by decide +kernel
  labels := by decide +kernel

/-- A score at which the line is cut. -/
def borderline : Context :=
  Record.empty.put .applicationScore (some (550 : Float))

def scoreGate : Node :=
  Node.ofKind "gate" (.gate "application_score" scoreBranches none)

theorem numbers_banded_borderline : scoreGate.HasBands "application_score" scoreBranches ∧
    borderline.lookup "application_score" = some (.number 550) ∧ CutAt [550, 700] scoreBranches ∧
      ∃ s, scoreGate.step? borderline = some s ∧
        FallsIn scoreBranches (.number 550) s.branch s.selection ∧
        ∃ b, TakesOnly [550, 700] scoreBranches 550 s b ∧ b.min = some 550 := by
  have hbands : scoreGate.HasBands "application_score" scoreBranches := .gate rfl
  have hlookup : borderline.lookup "application_score" = some (.number 550) := by cbv
  have hnumber : (Value.number 550).number? = some 550 := by
    rw [Value.number?, if_pos (by decide +kernel)]
  obtain ⟨s, hs, hbanded, hcut⟩ := numbers_banded hbands hlookup
  obtain ⟨b, hb⟩ := hcut _ cutAt_scoreBranches 550 hnumber
  have hmin := hb.boundary 550 (List.mem_cons_self ..) (by decide +kernel)
  exact ⟨hbands, hlookup, cutAt_scoreBranches, s, hs, hbanded rfl, b, hb, hmin⟩

end Branching

end Lending
