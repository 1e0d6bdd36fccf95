import Lending.Proofs.Form.Trees
import Lending.Proofs.Json.Text

/-! Strategies, assessments and bundles, read back from their forms.

A plain bundle's form has a reading, and it is the bundle itself exactly if the bundle has no
threshold that is mistaken for something else: no optional one of null, and no scalar written like
a list or a range. The text of the form has the same reading, unless it is nested too deep for the
reader (`Bundle.reread_iff_isDistinct`). -/
namespace Lending
open Form

/-! ### Strategies and assessments -/

theorem Decision.ofForm?_form (o : Decision) : ofForm? o.form = some o := by
  cases o <;> rfl

theorem Mode.ofForm?_form (m : Mode) : ofForm? m.form = some m := by
  cases m <;> rfl

theorem Cutoff.ofForm?_form (c : Cutoff) : ofForm? c.form = some c := by
  have hrecord : IsRecord ["band", "min_score", "outcome"] c.form := ⟨_, rfl, .always _⟩
  obtain ⟨m, hm, hget⟩ := hrecord.members? (by decide) ["band", "min_score", "outcome"]
  have hband : m.required text? "band" = some c.band :=
    required_of_get? (d := .text c.band) (by simp [hget, form])
  have hscore : m.required number? "min_score" = some c.minScore :=
    required_of_get? (d := .real c.minScore) (by simp [hget, form])
  have houtcome : m.required Decision.ofForm? "outcome" = some c.outcome :=
    (required_of_get? (by simp [hget, form])).trans (Decision.ofForm?_form c.outcome)
  rw [ofForm?, hm]
  simp [hband, hscore, houtcome]

theorem Gate.ofForm?_form (g : Gate) : ofForm? g.form = some g := by
  have hrecord : IsRecord ["min_score", "fail_outcome"] g.form := ⟨_, rfl, .always _⟩
  obtain ⟨m, hm, hget⟩ := hrecord.members? (by decide) ["min_score", "fail_outcome"]
  have hscore : m.required number? "min_score" = some g.minScore :=
    required_of_get? (d := .real g.minScore) (by simp [hget, form])
  have houtcome : m.orElse Decision.ofForm? "fail_outcome" .decline = some g.failOutcome :=
    (orElse_of_get? (by simp [hget, form])).trans (Decision.ofForm?_form g.failOutcome)
  rw [ofForm?, hm]
  simp [hscore, houtcome]

theorem Strategy.isRecord_form (s : Strategy) :
    IsRecord ["id", "version", "name", "evaluation_mode", "knock_out_rules", "overlay_rules",
      "score_cutoffs", "reason_code_map", "score_gate"] s.form :=
  ⟨_, rfl, (((Named.always _).append (.optional ..)).append (.always _)).append (.optional ..)⟩

theorem Strategy.givesBack {s : Strategy} (h : s.IsPlain) :
    GivesBack (ofForm? s.form) s
      (Rule.AreDistinct s.knockOuts ∧ Rule.AreDistinct s.overlays) := by
  obtain ⟨m, hm, hget⟩ := s.isRecord_form.members? (by decide) knownMembers
  have hid : m.required text? "id" = some s.id :=
    required_of_get? (d := .text s.id) (by simp [hget, form])
  have hversion : m.orElse count? "version" 1 = some s.version :=
    (orElse_of_get? (by simp [hget, form])).trans (count?_ofCount s.version)
  have hname : m.optional text? "name" = some s.name :=
    optional_of_get? .text (by simp [hget, form]) (by simp)
  have hmode : m.required Mode.ofForm? "evaluation_mode" = some s.mode :=
    (required_of_get? (by simp [hget, form])).trans (Mode.ofForm?_form s.mode)
  obtain ⟨knockOuts, hread, hknockOutsiff⟩ := Rule.givesBack_list h.knockOuts
  have hknockOuts : m.orElse (list? Rule.ofForm?) "knock_out_rules" [] = some knockOuts :=
    (orElse_of_get? (by simp [hget, form])).trans hread
  obtain ⟨overlays, hread, hoverlaysiff⟩ := Rule.givesBack_list h.overlays
  have hoverlays : m.orElse (list? Rule.ofForm?) "overlay_rules" [] = some overlays :=
    (orElse_of_get? (by simp [hget, form])).trans hread
  have hcutoffs : m.orElse (list? Cutoff.ofForm?) "score_cutoffs" [] = some s.cutoffs :=
    (orElse_of_get? (by simp [hget, form])).trans (list?_ofList fun c _ => Cutoff.ofForm?_form c)
  have hreasons : m.orElse (dict? text?) "reason_code_map" [] = some s.reasonCodes :=
    (orElse_of_get? (by simp [hget, form])).trans
      (dict?_ofDict h.reasonCodes fun code _ => text?_text code)
  have hgate : m.optional Gate.ofForm? "score_gate" = some s.gate :=
    optional_of_get? Gate.form (by simp [hget, form])
      fun g _ => ⟨by simp [Gate.form, Document.record], Gate.ofForm?_form g⟩
  refine ⟨{ s with knockOuts := knockOuts, overlays := overlays }, ?_, ?_⟩
  · rw [ofForm?, hm]
    simp [hid, hversion, hname, hmode, hknockOuts, hoverlays, hcutoffs, hreasons, hgate]
  · rw [← hknockOutsiff, ← hoverlaysiff]
    obtain ⟨id, version, name, mode, kos, ols, cutoffs, reasonCodes, gate⟩ := s
    simp

theorem Assessment.isRecord_form (a : Assessment) : IsRecord ["id", "name", "rules"] a.form :=
  ⟨_, rfl, ((Named.always _).append (.optional ..)).append (.always _)⟩

theorem Assessment.givesBack {a : Assessment} (h : ∀ r ∈ a.rules, r.IsPlain) :
    GivesBack (ofForm? a.form) a (Rule.AreDistinct a.rules) := by
  obtain ⟨m, hm, hget⟩ := a.isRecord_form.members? (by decide) ["id", "name", "rules"]
  have hid : m.required text? "id" = some a.id :=
    required_of_get? (d := .text a.id) (by simp [hget, form])
  have hname : m.optional text? "name" = some a.name :=
    optional_of_get? .text (by simp [hget, form]) (by simp)
  obtain ⟨rules, hread, hiff⟩ := Rule.givesBack_list h
  have hrules : m.orElse (list? Rule.ofForm?) "rules" [] = some rules :=
    (orElse_of_get? (by simp [hget, form])).trans hread
  refine ⟨{ a with rules := rules }, ?_, ?_⟩
  · rw [ofForm?, hm]
    simp [hid, hname, hrules]
  · rw [← hiff]
    obtain ⟨id, name, rs⟩ := a
    simp

/-! ### Bundles -/

namespace Bundle

def rules (b : Bundle) : List Rule :=
  b.catalog.toList.flatMap CatalogChanges.custom ++
    b.strategies.flatMap (fun s => s.knockOuts ++ s.overlays) ++
    b.assessments.flatMap Assessment.rules

def overrides (b : Bundle) : List RuleOverride :=
  b.catalog.toList.flatMap fun c => c.overrides.values

/-- The thresholds of all rules and overrides. -/
def thresholds (b : Bundle) : List Threshold :=
  b.rules.flatMap (·.kind.thresholds) ++ b.overrides.filterMap RuleOverride.threshold

/-- The branches of all nodes. -/
def branches (b : Bundle) : List Branch :=
  b.trees.flatMap fun t => t.nodes.flatMap Node.branches

/-- Nothing in the bundle is taken for something else when its form is read: no optional threshold
is null, and no scalar is written like a list or a range. -/
structure IsDistinct (b : Bundle) : Prop where
  branches : ∀ br ∈ b.branches, br.threshold ≠ some .null
  overrides : ∀ o ∈ b.overrides, o.threshold ≠ some (.scalar .null)
  thresholds : ∀ v, .scalar v ∈ b.thresholds → ¬ v.IsShaped

theorem isRecord_form (b : Bundle) :
    IsRecord ["catalog", "trees", "strategies", "assessments"] b.form :=
  ⟨_, rfl, (Named.optional ..).append (.always _)⟩

/-- A bundle is given back if all of its parts are. -/
theorem givesBack_parts {b : Bundle} (h : b.IsPlain) : GivesBack (ofForm? b.form) b
    ((∀ c ∈ b.catalog, (∀ o ∈ c.overrides.values, o.IsDistinct) ∧ Rule.AreDistinct c.custom) ∧
      (∀ t ∈ b.trees, ∀ n ∈ t.nodes, n.kind.IsDistinct) ∧
      (∀ s ∈ b.strategies, Rule.AreDistinct s.knockOuts ∧ Rule.AreDistinct s.overlays) ∧
      ∀ a ∈ b.assessments, Rule.AreDistinct a.rules) := by
  obtain ⟨m, hm, hget⟩ :=
    b.isRecord_form.members? (by decide) ["catalog", "trees", "strategies", "assessments"]
  obtain ⟨catalog, hcatalog, hcatalogiff⟩ := givesBack_optional CatalogChanges.form
    (show m.get? "catalog" = b.catalog.map CatalogChanges.form by simp [hget, form])
    fun c hc => CatalogChanges.givesBack (h.catalog c hc)
  obtain ⟨trees, hread, htreesiff⟩ := givesBack_list fun t ht => TreeDraft.givesBack (h.trees t ht)
  have htrees : m.orElse (list? TreeDraft.ofForm?) "trees" [] = some trees :=
    (orElse_of_get? (by simp [hget, form])).trans hread
  obtain ⟨strategies, hread, hstrategiesiff⟩ :=
    givesBack_list fun s hs => Strategy.givesBack (h.strategies s hs)
  have hstrategies : m.orElse (list? Strategy.ofForm?) "strategies" [] = some strategies :=
    (orElse_of_get? (by simp [hget, form])).trans hread
  obtain ⟨assessments, hread, hassessmentsiff⟩ :=
    givesBack_list fun a ha => Assessment.givesBack (h.assessments a ha)
  have hassessments : m.orElse (list? Assessment.ofForm?) "assessments" [] = some assessments :=
    (orElse_of_get? (by simp [hget, form])).trans hread
  refine ⟨⟨catalog, trees, strategies, assessments⟩, ?_, ?_⟩
  · rw [ofForm?, hm]
    simp [hcatalog, htrees, hstrategies, hassessments]
  · rw [← htreesiff, ← hstrategiesiff, ← hassessmentsiff]
    obtain ⟨c, ts, ss, as⟩ := b
    simp [hcatalogiff, CatalogChanges.form, Document.record]

/-- What the bundle's branches, overrides and rules have to be. -/
theorem isDistinct_iff {b : Bundle} : b.IsDistinct ↔
    (∀ br ∈ b.branches, br.IsDistinct) ∧ (∀ o ∈ b.overrides, o.IsDistinct) ∧
      Rule.AreDistinct b.rules := by
  constructor
  · intro h
    have hall : ∀ t ∈ b.thresholds, t.IsDistinct := by
      rintro t ht v rfl
      exact h.thresholds v ht
    obtain ⟨hrules, hoverrides⟩ := List.forall_mem_append.1 hall
    refine ⟨h.branches, fun o ho t ht => ⟨?_, ?_⟩, List.forall_mem_flatMap.1 hrules⟩
    · rintro rfl
      exact h.overrides o ho ht
    · exact hoverrides t (List.mem_filterMap.2 ⟨o, ho, ht⟩)
  · rintro ⟨hbranches, hoverrides, hrules⟩
    refine ⟨hbranches, fun o ho hnull => (hoverrides o ho _ hnull).1 rfl, fun v hv => ?_⟩
    rcases List.mem_append.1 hv with hrule | hoverride
    · exact List.forall_mem_flatMap.2 hrules _ hrule v rfl
    · obtain ⟨o, ho, ht⟩ := List.mem_filterMap.1 hoverride
      exact (hoverrides o ho _ ht).2 v rfl

/-- **A plain bundle is given back exactly if nothing in it is taken for something else.** -/
theorem givesBack {b : Bundle} (h : b.IsPlain) : GivesBack (ofForm? b.form) b b.IsDistinct := by
  refine (givesBack_parts h).congr ?_
  simp only [isDistinct_iff, branches, overrides, rules, List.forall_mem_flatMap,
    Rule.areDistinct_append, Rule.areDistinct_flatMap, Node.isDistinct_iff, Option.mem_toList,
    forall_and]
  tauto

/-- The bundle that a JSON text holds. -/
def ofText? (reals : Json.Conversion) (s : String) : Option Bundle :=
  (Json.read s reals).bind ofForm?

/-- **A plain bundle can be read from what JSON keeps of it, and is the bundle that was written
exactly if nothing in it is taken for something else.** From its text it can be read exactly if it
is not nested too deep, provided that the literals of its numbers are read back. -/
theorem reread_iff_isDistinct (reals : Json.Conversion) {b : Bundle} (h : b.IsPlain) :
    ∃ c, ofForm? (Json.kept b.form) = some c ∧ (c = b ↔ b.IsDistinct) ∧
      ((∀ x ∈ b.form.numbers, Json.ReadsBack reals x) →
        ofText? reals (Json.write b.form) =
          if Json.depth b.form ≤ Json.maxDepth then some c else none) := by
  rw [Json.kept_of_isJson (isJson_form h)]
  obtain ⟨c, hc, hiff⟩ := givesBack h
  refine ⟨c, hc, hiff, fun hnumbers => ?_⟩
  rw [ofText?, Json.read_write (isJson_form h) hnumbers]
  split
  · exact hc
  · rfl

/-- A tree with one gate, whose only branch has a threshold. -/
def thresholdTree (threshold : Value) : TreeDraft :=
  ⟨"routing", none, 1, none,
    [.ofKind "root" (.gate "score" [⟨"Other", [], none, none, some threshold⟩] none)]⟩

theorem isPlain_thresholdTree {threshold : Value} (h : threshold.IsPlain) :
    (thresholdTree threshold).IsPlain := by
  have hbranch : (⟨"Other", [], none, none, some threshold⟩ : Branch).IsPlain := by
    constructor <;> simp [h]
  simpa [thresholdTree, TreeDraft.IsPlain, Node.ofKind, NodeKind.IsPlain] using hbranch

theorem readsBack_one : Json.ReadsBack Json.nearest (Number.ofInt 1) := by
  have hone : Number.ofInt 1 = 1 := by rfl
  rw [hone]
  rfl

/-- An assessment by score, and a tree with a branch whose threshold is null. -/
def manualCheck : Bundle where
  catalog := none
  trees := [thresholdTree .null]
  strategies := []
  assessments := [⟨"manual_check", none,
    [.stored "min_score" "Minimum score" "score" .gte (.scalar (.number 650)) .refer]⟩]

/-- The null threshold is lost, and nothing else could be. -/
theorem reread_manualCheck : manualCheck.IsPlain ∧ ¬ manualCheck.IsDistinct ∧
    (∀ x ∈ manualCheck.form.numbers, Json.ReadsBack Json.nearest x) ∧
    ∃ c, ofForm? (Json.kept manualCheck.form) = some c ∧ c ≠ manualCheck ∧
      ofText? Json.nearest (Json.write manualCheck.form) = some c := by
  have hplain : manualCheck.IsPlain := by
    have hrule : (650 : Float).isFinite = true := by decide +kernel
    constructor
    · simp [manualCheck]
    · exact List.forall_mem_singleton.2 (isPlain_thresholdTree trivial)
    · simp [manualCheck]
    · simpa [manualCheck, Rule.IsPlain, Rule.stored, Rule.ofKind, RuleKind.thresholds,
        Threshold.IsPlain, Value.IsPlain] using hrule
  have hdistinct : ¬ manualCheck.IsDistinct := fun h =>
    h.branches ⟨"Other", [], none, none, some .null⟩ (List.mem_singleton_self _) rfl
  have hnumbers : ∀ x ∈ manualCheck.form.numbers, Json.ReadsBack Json.nearest x := by
    have hlist : manualCheck.form.numbers = [Number.ofInt 1, 650] := by rfl
    rw [hlist, List.forall_mem_cons, List.forall_mem_singleton]
    exact ⟨readsBack_one, by rfl⟩
  obtain ⟨c, hc, hiff, htext⟩ := reread_iff_isDistinct Json.nearest hplain
  have hdepth : Json.depth manualCheck.form ≤ Json.maxDepth := by decide +kernel
  have hread := htext hnumbers
  rw [if_pos hdepth] at hread
  exact ⟨hplain, hdistinct, hnumbers, c, hc, fun he => hdistinct (hiff.1 he), hread⟩

/-- Lists inside of lists. -/
def nested : Nat → Value
  | 0 => .null
  | levels + 1 => .array [nested levels]

theorem isPlain_nested (levels : Nat) : (nested levels).IsPlain := by
  induction levels with
  | zero => trivial
  | succ levels ih => exact ⟨ih, trivial⟩

theorem numbers_nested (levels : Nat) : (Document.ofValue (nested levels)).numbers = [] := by
  induction levels with
  | zero => rfl
  | succ levels ih => exact (List.append_nil _).trans ih

theorem depth_nested (levels : Nat) : Json.depth (Document.ofValue (nested levels)) = levels := by
  induction levels with
  | zero => rfl
  | succ levels ih => exact congrArg (· + 1) ((Nat.max_zero _).trans ih)

/-- A tree with a branch whose threshold is so many nested lists. -/
def deepCheck (levels : Nat) : Bundle :=
  { empty with trees := [thresholdTree (nested levels)] }

theorem isPlain_deepCheck (levels : Nat) : (deepCheck levels).IsPlain := by
  constructor
  · simp [deepCheck, empty]
  · exact List.forall_mem_singleton.2 (isPlain_thresholdTree (isPlain_nested levels))
  · simp [deepCheck, empty]
  · simp [deepCheck, empty]

theorem numbers_deepCheck (levels : Nat) :
    (deepCheck levels).form.numbers = [Number.ofInt 1] := by
  simp [deepCheck, form, empty, thresholdTree, TreeDraft.form, Node.form, Node.ofKind,
    NodeKind.fields, Branch.form, Document.record, ofList, Form.optional, unlessEmpty, ofCount,
    Document.numbers, Document.itemNumbers, Document.memberNumbers, numbers_nested]

theorem levels_le_depth (levels : Nat) : levels ≤ Json.depth (deepCheck levels).form := by
  simp [deepCheck, form, empty, thresholdTree, TreeDraft.form, Node.form, Node.ofKind,
    NodeKind.fields, Branch.form, Document.record, ofList, Form.optional, unlessEmpty, ofCount,
    Json.depth, Json.itemsDepth, Json.membersDepth, depth_nested]
  omega

/-- The text of a threshold of a hundred and thirty nested lists is beyond the reader. -/
theorem deep_threshold_unread : ¬ ∀ b : Bundle, b.IsPlain →
    (∀ x ∈ b.form.numbers, Json.ReadsBack Json.nearest x) →
      ∃ c, ofText? Json.nearest (Json.write b.form) = some c := by
  intro h
  have hplain := isPlain_deepCheck 130
  have hnumbers : ∀ x ∈ (deepCheck 130).form.numbers, Json.ReadsBack Json.nearest x := by
    rw [numbers_deepCheck, List.forall_mem_singleton]
    exact readsBack_one
  have hdepth : ¬ Json.depth (deepCheck 130).form ≤ Json.maxDepth :=
    Nat.not_le.2 (Nat.lt_of_lt_of_le (by decide) (levels_le_depth 130))
  obtain ⟨c, hc⟩ := h _ hplain hnumbers
  rw [ofText?, Json.read_write (isJson_form hplain) hnumbers, if_neg hdepth] at hc
  cases hc

end Bundle

end Lending
