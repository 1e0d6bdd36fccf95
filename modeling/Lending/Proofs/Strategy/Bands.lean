import Lending.Proofs.Number.Rank
import Lending.Proofs.Strategy.Execution

/-! The score bands of a strategy.

A score belongs to the highest band that it reaches, in whatever order the bands are declared
(`Reached`). The lookup sorts the bands by the ranks of their ends and then compares the score with
one end after the other; of finite ends both see one order, up to the two zeros. Declaration order
settles nothing but which of several bands with the very same end is taken. -/
namespace Lending.Strategy
variable {s s' : Strategy} {x y : Float} {c d : Cutoff}

/-- Every band has a finite lower end. -/
def HasFiniteBands (s : Strategy) : Prop :=
  ∀ c ∈ s.cutoffs, c.minScore.isFinite = true

/-- The band that a score belongs to. -/
structure Reached (s : Strategy) (x : Float) (c : Cutoff) : Prop where
  declared : c ∈ s.cutoffs
  reaches : c.minScore ≤ x
  /-- No band that the score reaches ends higher. -/
  highest : ∀ d ∈ s.cutoffs, d.minScore ≤ x → d.minScore ≤ c.minScore
  /-- Zero is taken for higher than negative zero. -/
  topZero : ∀ d ∈ s.cutoffs, d.minScore ≤ x → Number.rank d.minScore ≤ Number.rank c.minScore
  /-- Of the bands with this very end it is the first. -/
  first : s.cutoffs.find? (·.minScore = c.minScore) = some c

theorem finite_of_cutoffFault? (h : cutoffFault? c = none) : c.minScore.isFinite = true := by
  unfold cutoffFault? at h
  split at h
  · cases h
  · split at h
    · assumption
    · cases h

/-- Validation sees to it that the bands have finite ends. -/
theorem Valid.hasFiniteBands (h : s.Valid) : s.HasFiniteBands :=
  fun c hc => finite_of_cutoffFault? (h.cutoffs c hc)

/-! ### Bands from the highest down -/

theorem bandsDescending_perm (s : Strategy) : s.bandsDescending.Perm s.cutoffs :=
  List.mergeSort_perm ..

theorem mem_bandsDescending : c ∈ s.bandsDescending ↔ c ∈ s.cutoffs :=
  s.bandsDescending_perm.mem_iff

theorem descending_trans (a b c : Cutoff)
    (hab : decide (Number.rank b.minScore ≤ Number.rank a.minScore) = true)
    (hbc : decide (Number.rank c.minScore ≤ Number.rank b.minScore) = true) :
    decide (Number.rank c.minScore ≤ Number.rank a.minScore) = true :=
  decide_eq_true (Int.le_trans (of_decide_eq_true hbc) (of_decide_eq_true hab))

theorem descending_total (a b : Cutoff) :
    (decide (Number.rank b.minScore ≤ Number.rank a.minScore) ||
      decide (Number.rank a.minScore ≤ Number.rank b.minScore)) = true := by
  simpa using Int.le_total (Number.rank b.minScore) (Number.rank a.minScore)

theorem ranked_bandsDescending (s : Strategy) : s.bandsDescending.Pairwise fun a b =>
    Number.rank b.minScore ≤ Number.rank a.minScore :=
  (List.pairwise_mergeSort descending_trans descending_total s.cutoffs).imp of_decide_eq_true

theorem HasFiniteBands.descending (h : s.HasFiniteBands) :
    s.bandsDescending.Pairwise fun a b => b.minScore ≤ a.minScore := by
  refine s.ranked_bandsDescending.imp_of_mem fun ha hb hrank => ?_
  exact Number.le_of_rank_le (h _ (mem_bandsDescending.1 hb)) (h _ (mem_bandsDescending.1 ha)) hrank

/-- The bands with one end stay in the order of their declaration. -/
theorem filter_bandsDescending (s : Strategy) (lowest : Float) :
    s.bandsDescending.filter (·.minScore = lowest) = s.cutoffs.filter (·.minScore = lowest) := by
  have hends : ∀ c ∈ s.cutoffs.filter (·.minScore = lowest), c.minScore = lowest :=
    fun c hc => of_decide_eq_true (List.mem_filter.1 hc).2
  have hsorted : (s.cutoffs.filter (·.minScore = lowest)).Pairwise fun a b =>
      decide (Number.rank b.minScore ≤ Number.rank a.minScore) = true :=
    List.pairwise_of_forall_mem_list fun a ha b hb => by
      rw [hends a ha, hends b hb]
      exact decide_eq_true (Int.le_refl _)
  have hsub : (s.cutoffs.filter (·.minScore = lowest)).Sublist s.bandsDescending :=
    List.sublist_mergeSort descending_trans descending_total hsorted List.filter_sublist
  have hkept := hsub.filter (·.minScore = lowest)
  rw [List.filter_filter] at hkept
  simp only [Bool.and_self] at hkept
  refine (hkept.eq_of_length ?_).symm
  exact ((s.bandsDescending_perm.filter _).length_eq).symm

/-! ### The band of a score -/

theorem bandFor_eq_none_iff : s.bandFor x = none ↔ ∀ c ∈ s.cutoffs, ¬ c.minScore ≤ x := by
  simp only [bandFor, List.find?_eq_none, mem_bandsDescending, decide_eq_true_eq]

/-- The band found is the one that the score belongs to. -/
theorem HasFiniteBands.reached (h : s.HasFiniteBands) (hband : s.bandFor x = some c) :
    s.Reached x c := by
  obtain ⟨hreaches, before, after, hsplit, hbefore⟩ := List.find?_eq_some_iff_append.1 hband
  have hreaches : c.minScore ≤ x := of_decide_eq_true hreaches
  have hbefore : ∀ d ∈ before, ¬ d.minScore ≤ x := fun d hd => by simpa using hbefore d hd
  have hdeclared : c ∈ s.cutoffs := mem_bandsDescending.1 (by rw [hsplit]; simp)
  -- a band that the score reaches is this one or comes after it
  have hlater : ∀ d ∈ s.cutoffs, d.minScore ≤ x → d = c ∨ d ∈ after := by
    intro d hd hdx
    have hmem := mem_bandsDescending.2 hd
    rw [hsplit, List.mem_append, List.mem_cons] at hmem
    exact hmem.resolve_left fun hd => hbefore d hd hdx
  have hranked := s.ranked_bandsDescending
  have hdescending := h.descending
  rw [hsplit, List.pairwise_append, List.pairwise_cons] at hranked hdescending
  refine ⟨hdeclared, hreaches, fun d hd hdx => ?highest, fun d hd hdx => ?topZero, ?first⟩
  case highest =>
    rcases hlater d hd hdx with rfl | hafter
    · exact Number.le_self_of_finite (h d hd)
    · exact hdescending.2.1.1 d hafter
  case topZero =>
    rcases hlater d hd hdx with rfl | hafter
    · exact Int.le_refl _
    · exact hranked.2.1.1 d hafter
  case first =>
    have hskipped : before.filter (·.minScore = c.minScore) = [] := by
      refine List.filter_eq_nil_iff.2 fun d hd hend => hbefore d hd ?_
      rw [of_decide_eq_true hend]
      exact hreaches
    rw [← List.head?_filter, ← filter_bandsDescending, hsplit, List.filter_append, hskipped,
      List.nil_append, List.filter_cons, if_pos (decide_eq_true rfl)]
    rfl

/-- A score belongs to one band at most. -/
theorem Reached.unique (hc : s.Reached x c) (hd : s.Reached x d) : c = d := by
  have hend : c.minScore = d.minScore := Number.rank_injective
    (Int.le_antisymm (hd.topZero c hc.declared hc.reaches) (hc.topZero d hd.declared hd.reaches))
  have hfirst := hc.first
  rw [hend, hd.first] at hfirst
  exact (Option.some.inj hfirst).symm

/-- **The lookup finds the band that a score belongs to.** -/
theorem HasFiniteBands.bandFor_eq_some_iff (h : s.HasFiniteBands) :
    s.bandFor x = some c ↔ s.Reached x c := by
  refine ⟨h.reached, fun hc => ?_⟩
  cases hband : s.bandFor x with
  | none => exact absurd hc.reaches (bandFor_eq_none_iff.1 hband c hc.declared)
  | some d => rw [(h.reached hband).unique hc]

/-- A higher score belongs to no lower band. -/
theorem HasFiniteBands.bandFor_mono (h : s.HasFiniteBands) (hxy : x ≤ y)
    (hband : s.bandFor x = some c) : ∃ d, s.bandFor y = some d ∧ c.minScore ≤ d.minScore := by
  have hc := h.reached hband
  have hcy := Number.le_trans hc.reaches hxy
  cases hband' : s.bandFor y with
  | none => exact absurd hcy (bandFor_eq_none_iff.1 hband' c hc.declared)
  | some d => exact ⟨d, rfl, (h.reached hband').highest c hc.declared hcy⟩

/-- Where all ends differ, the order of declaration settles nothing. -/
theorem Reached.perm (h : s.Reached x c) (hperm : s.cutoffs.Perm s'.cutoffs)
    (hdistinct : (s.cutoffs.map Cutoff.minScore).Nodup) : s'.Reached x c := by
  refine ⟨hperm.mem_iff.1 h.declared, h.reaches, fun d hd => h.highest d (hperm.mem_iff.2 hd),
    fun d hd => h.topZero d (hperm.mem_iff.2 hd), ?first⟩
  case first =>
    have hsome : (s'.cutoffs.find? (·.minScore = c.minScore)).isSome = true :=
      List.find?_isSome.2 ⟨c, hperm.mem_iff.1 h.declared, decide_eq_true rfl⟩
    obtain ⟨d, hd⟩ := Option.isSome_iff_exists.1 hsome
    have hend : d.minScore = c.minScore := by simpa using List.find?_some hd
    have hmem : d ∈ s.cutoffs := hperm.mem_iff.2 (List.mem_of_find?_eq_some hd)
    rw [hd, List.inj_on_of_nodup_map hdistinct hmem h.declared hend]

theorem HasFiniteBands.perm (h : s.HasFiniteBands) (hperm : s.cutoffs.Perm s'.cutoffs) :
    s'.HasFiniteBands :=
  fun c hc => h c (hperm.mem_iff.2 hc)

theorem HasFiniteBands.bandFor_perm (h : s.HasFiniteBands) (hperm : s.cutoffs.Perm s'.cutoffs)
    (hdistinct : (s.cutoffs.map Cutoff.minScore).Nodup) : s'.bandFor = s.bandFor := by
  have hdistinct' : (s'.cutoffs.map Cutoff.minScore).Nodup :=
    (hperm.map Cutoff.minScore).nodup_iff.1 hdistinct
  funext x
  refine Option.ext fun c => ?_
  rw [(h.perm hperm).bandFor_eq_some_iff, h.bandFor_eq_some_iff]
  exact ⟨fun hc => hc.perm hperm.symm hdistinct', fun hc => hc.perm hperm hdistinct⟩

/-- **Bands are looked up from the highest down.** Validation guarantees finite ends. With these,
the lookup gives the highest band that a score reaches and none if it reaches no band, the bands are
put in descending order without loss, and a higher score is never given a lower band. -/
theorem bandFor_ranks (s : Strategy) : (s.validate = .ok () → s.HasFiniteBands) ∧
    (s.HasFiniteBands →
      (∀ x c, s.bandFor x = some c ↔ s.Reached x c) ∧
      (∀ x, s.bandFor x = none ↔ ∀ c ∈ s.cutoffs, ¬ c.minScore ≤ x) ∧
      (s.bandsDescending.Perm s.cutoffs ∧
        s.bandsDescending.Pairwise fun a b => b.minScore ≤ a.minScore) ∧
      ∀ x y c, x ≤ y → s.bandFor x = some c →
        ∃ d, s.bandFor y = some d ∧ c.minScore ≤ d.minScore) := by
  refine ⟨fun hvalid => (validate_ok_iff.1 hvalid).hasFiniteBands, fun h => ?_⟩
  refine ⟨fun x c => h.bandFor_eq_some_iff, fun x => bandFor_eq_none_iff, ?sorted,
    fun x y c => h.bandFor_mono⟩
  case sorted => exact ⟨s.bandsDescending_perm, h.descending⟩

/-- Bands that are declared upside down, two of them at zero and two at one end. -/
def tieredPath : Strategy :=
  { ofMode "tiered_v1" .scoring with
    cutoffs := [⟨"entry", -0.0, .decline⟩, ⟨"base", 0, .refer⟩, ⟨"prime", 700, .approve⟩,
      ⟨"prime_limited", 700, .refer⟩] }

/-- The first of two equal bands is taken, and zero comes before negative zero. -/
theorem bandFor_ranks_tiered : tieredPath.validate = .ok () ∧ tieredPath.HasFiniteBands ∧
    tieredPath.bandFor 720 = some ⟨"prime", 700, .approve⟩ ∧
    tieredPath.bandFor (-0.0) = some ⟨"base", 0, .refer⟩ ∧ tieredPath.bandFor (-1) = none ∧
    tieredPath.bandFor (0 / 0) = none ∧
    ∃ d, tieredPath.bandFor 720 = some d ∧ (0 : Float) ≤ d.minScore := by
  obtain ⟨hfinite, hranks⟩ := bandFor_ranks tieredPath
  have hvalid : tieredPath.validate = .ok () := by rfl
  obtain ⟨hsome, hnone, _, hmono⟩ := hranks (hfinite hvalid)
  have hbase : tieredPath.bandFor (-0.0) = some ⟨"base", 0, .refer⟩ :=
    (hsome _ _).2 ⟨by simp [tieredPath], by decide, by decide, by decide, rfl⟩
  refine ⟨hvalid, hfinite hvalid, ?prime, hbase, ?below, ?nan, ?higher⟩
  case prime => exact (hsome _ _).2 ⟨by simp [tieredPath], by decide, by decide, by decide, rfl⟩
  case below => exact (hnone _).2 (by decide)
  case nan => exact (hnone _).2 (by decide)
  case higher =>
    have hle : (-0.0 : Float) ≤ 720 := by decide
    obtain ⟨d, hd, hhigher⟩ := hmono _ _ _ hle hbase
    exact ⟨d, hd, hhigher⟩

end Lending.Strategy
