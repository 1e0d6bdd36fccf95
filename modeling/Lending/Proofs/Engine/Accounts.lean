import Lending.Proofs.Engine.Batches

/-! Reports that add up.

The numbers of a report are counted apart from its lists. That they agree is what the loops over
batches keep from row to row, whether an application is decided or fails, has a stored decision or
none, changes or not. What the lists say of the batch is said by `Itemizes`: one entry for each
application that has one, in the order of the batch. -/
namespace Lending

/-- A list has an entry for each of the items that call for one, in the order of the items. -/
inductive Itemizes {α β : Type} (R : α → β → Prop) : List α → List β → Prop
  | nil : Itemizes R [] []
  | silent {a : α} {items : List α} {entries : List β} (none : ∀ b, ¬ R a b)
    (rest : Itemizes R items entries) : Itemizes R (a :: items) entries
  | entry {a : α} {b : β} {items : List α} {entries : List β} (holds : R a b)
    (rest : Itemizes R items entries) : Itemizes R (a :: items) (b :: entries)

theorem itemizes_filterMap {α β : Type} {R : α → β → Prop} {f : α → Option β}
    (h : ∀ a b, f a = some b ↔ R a b) (items : List α) : Itemizes R items (items.filterMap f) := by
  induction items with
  | nil => exact .nil
  | cons a rest ih =>
    cases hf : f a with
    | none =>
      rw [List.filterMap_cons_none hf]
      refine .silent (fun b hb => ?_) ih
      rw [(h a b).2 hb] at hf
      cases hf
    | some b =>
      rw [List.filterMap_cons_some hf]
      exact .entry ((h a b).1 hf) ih

/-! ### Replays -/

/-- The numbers of a replay's report agree with each other and with its lists. -/
structure ReplayReport.Balanced (r : ReplayReport) : Prop where
  settled : r.evaluated + r.errors.length = r.total
  counted : r.newCounts.total = r.evaluated
  /-- What changed was compared. -/
  changed_le : r.changed.length ≤ r.storedCounts.total
  rate : r.agreementRate = Simulation.agreement r.storedCounts.total r.changed.length

/-- Each decision is made as often as it is stored, less the applications that left it, and with
those that came to it. -/
def ReplayReport.Moves (r : ReplayReport) : Prop :=
  ∀ d, (r.newCounts.get d : Int) =
    r.storedCounts.get d - r.changed.countP (fun ch => ch.old = d) +
      r.changed.countP fun ch => ch.new = d

namespace ReplayReport

theorem Moves.append {r r' : ReplayReport} (h : r.Moves) (h' : r'.Moves) :
    (r.append r').Moves := by
  intro d
  have hd := h d
  have hd' := h' d
  simp only [ReplayReport.append, Tally.get_add, List.countP_append]
  omega

end ReplayReport

namespace Simulation

/-- The report on one application more. -/
theorem replayReport_cons (row : Replayed) (rows : List Replayed) :
    replayReport (row :: rows) = (replayReport [row]).append (replayReport rows) :=
  replayReport_append [row] rows

theorem balanced_replayReport (rows : List Replayed) : (replayReport rows).Balanced := by
  have hcounts := ReplayCounters.counts_run rows
  refine ⟨hcounts.settled, hcounts.counted, ?_, ?_⟩
  · exact hcounts.compared ▸ hcounts.changed_le
  · exact congrArg (agreement · _) hcounts.compared.symm

theorem moves_one {a : Application} {old : Decision} (h : a.storedDecision = some old)
    (new : Decision) : (replayReport [⟨a, .ok new⟩]).Moves := by
  have hcounts := ReplayCounters.counts_run [⟨a, .ok new⟩]
  intro d
  simp only [replayReport, ReplayCounters.report, hcounts.made, hcounts.stored, hcounts.changed]
  by_cases hsame : old = new
  · simp [Replayed.new?, Replayed.stored?, Replayed.change?, h, hsame]
  · simp [Replayed.new?, Replayed.stored?, Replayed.change?, h, hsame]

/-- Where all that is decided has a stored decision. -/
theorem moves_replayReport {rows : List Replayed}
    (h : ∀ row ∈ rows, row.new?.isSome → row.application.storedDecision.isSome) :
    (replayReport rows).Moves := by
  induction rows with
  | nil => exact fun _ => rfl
  | cons row rest ih =>
    obtain ⟨hrow, hrest⟩ := List.forall_mem_cons.1 h
    rw [replayReport_cons]
    refine ReplayReport.Moves.append ?_ (ih hrest)
    obtain ⟨a, result⟩ := row
    cases result with
    | error e =>
      rw [replayReport_cons_of_failed rfl]
      exact fun _ => rfl
    | ok new =>
      obtain ⟨old, hold⟩ := Option.isSome_iff_exists.1 (hrow rfl)
      exact moves_one hold new

/-- A change: what is stored and what is decided, which is another. -/
structure Moved (s : Simulation) (c : Configuration) (a : Application) (ch : OutcomeChange) :
    Prop where
  applicationId : ch.applicationId = a.id
  stored : a.storedDecision = some ch.old
  decided : s.decision? c a = some ch.new
  ne : ch.old ≠ ch.new

/-- What a replay lists of an application that cannot be decided. -/
def FailsWith (s : Simulation) (c : Configuration) (a : Application) (f : BatchFailure) : Prop :=
  ∃ e, s.decide c a = .error e ∧ f = ⟨a.id, e.message⟩

/-- An application fails, or there is a decision on it. -/
theorem again_cases (s : Simulation) (c : Configuration) (a : Application) :
    (∃ e, s.decide c a = .error e ∧ s.decision? c a = none ∧ s.again c a = ⟨a, .error e⟩) ∨
      ∃ d new, s.decide c a = .ok d ∧ s.decision? c a = some new ∧ s.again c a = ⟨a, .ok new⟩ := by
  unfold decision? again
  cases s.decide c a with
  | error e => exact .inl ⟨e, rfl, rfl, rfl⟩
  | ok d => exact .inr ⟨d, d.outcome.decision, rfl, rfl, rfl⟩

section
variable {s : Simulation} {c : Configuration} {a : Application}

theorem new?_again : (s.again c a).new? = s.decision? c a := by
  rcases again_cases s c a with ⟨e, _, hnone, hrow⟩ | ⟨_, new, _, hnew, hrow⟩
  · rw [hrow, hnone]
    rfl
  · rw [hrow, hnew]
    rfl

theorem stored?_again_iff {d : Decision} : (s.again c a).stored? = some d ↔
    (s.decision? c a).isSome ∧ a.storedDecision = some d := by
  rw [Replayed.stored?, new?_again, Option.ite_none_right_eq_some]
  rfl

theorem change?_again_iff {ch : OutcomeChange} :
    (s.again c a).change? = some ch ↔ s.Moved c a ch := by
  rcases again_cases s c a with ⟨e, _, hnone, hrow⟩ | ⟨_, new, _, hnew, hrow⟩
  · constructor
    · intro h
      rw [hrow, Replayed.change?] at h
      cases hstored : a.storedDecision <;> simp [hstored] at h
    · rintro ⟨_, _, hdecided, _⟩
      cases hnone.symm.trans hdecided
  · rw [hrow, Replayed.change?]
    constructor
    · intro h
      cases hstored : a.storedDecision with
      | none => simp [hstored] at h
      | some old =>
        simp only [hstored, Option.ite_none_left_eq_some, Option.some.injEq] at h
        obtain ⟨hne, rfl⟩ := h
        exact ⟨rfl, hstored, hnew, hne⟩
    · rintro ⟨hid, hstored, hdecided, hne⟩
      cases hnew.symm.trans hdecided
      simp only [hstored, if_neg hne, ← hid]

theorem failure?_again_iff {f : BatchFailure} :
    (s.again c a).failure? = some f ↔ s.FailsWith c a f := by
  rcases again_cases s c a with ⟨e, hdecide, _, hrow⟩ | ⟨d, new, hdecide, _, hrow⟩
  · simp [FailsWith, hdecide, hrow, Replayed.failure?, eq_comm]
  · simp [FailsWith, hdecide, hrow, Replayed.failure?]

end

/-- What a replay's report says of a batch. -/
structure Accounts (s : Simulation) (c : Configuration) (batch : List Application)
    (r : ReplayReport) : Prop where
  total : r.total = batch.length
  balanced : r.Balanced
  made : ∀ d, r.newCounts.get d = batch.countP fun a => s.decision? c a = some d
  /-- What is stored of the applications that are decided. -/
  stored : ∀ d, r.storedCounts.get d =
    batch.countP fun a => (s.decision? c a).isSome ∧ a.storedDecision = some d
  changed : Itemizes (s.Moved c) batch r.changed
  errors : Itemizes (s.FailsWith c) batch r.errors
  moves : (∀ a ∈ batch, (s.decision? c a).isSome → a.storedDecision.isSome) → r.Moves

theorem accounts_replayReport (s : Simulation) (c : Configuration) (batch : List Application) :
    s.Accounts c batch (replayReport (batch.map (s.again c))) := by
  have hcounts := ReplayCounters.counts_run (batch.map (s.again c))
  refine
    { total := List.length_map _
      balanced := balanced_replayReport _
      made := fun d => ?made
      stored := fun d => ?stored
      changed := ?changed
      errors := ?errors
      moves := fun h => moves_replayReport fun row hrow hnew => ?moves }
  case made =>
    refine (hcounts.made d).trans ?_
    simp only [List.countP_map, Function.comp_def, new?_again]
  case stored =>
    refine (hcounts.stored d).trans ?_
    simp only [List.countP_map, Function.comp_def, stored?_again_iff]
  case changed =>
    rw [replayReport, ReplayCounters.report, hcounts.changed, List.filterMap_map]
    exact itemizes_filterMap (fun _ _ => change?_again_iff) batch
  case errors =>
    rw [replayReport, ReplayCounters.report, hcounts.errors, List.filterMap_map]
    exact itemizes_filterMap (fun _ _ => failure?_again_iff) batch
  case moves =>
    obtain ⟨a, ha, rfl⟩ := List.mem_map.1 hrow
    exact h a ha (new?_again ▸ hnew)

end Simulation

/-! ### Impact analyses -/

namespace ImpactReport

/-- The numbers of an impact analysis agree with each other and with its lists. -/
structure Balanced (r : ImpactReport) : Prop where
  settled : r.evaluated + r.errors.length = r.total
  compared : r.changes.length + r.unchanged = r.evaluated
  changed : r.newlyApproved + r.newlyDeclined + r.newlyReferred = r.changes.length
  newly : ∀ d, r.newly d = r.changes.countP fun ch => ch.new = d
  kinds : ∀ ch ∈ r.changes, ch.old ≠ ch.new ∧ ch.kind = .toward ch.new

end ImpactReport

namespace Simulation
open Lending.Configuration

theorem balanced_impactReport (rows : List Compared) : (impactReport rows).Balanced := by
  have hcounts := ImpactCounters.counts_run rows
  refine ⟨hcounts.settled, hcounts.compared, hcounts.changed, hcounts.newly, fun ch hch => ?_⟩
  rw [impactReport, ImpactCounters.report, hcounts.changes] at hch
  obtain ⟨row, -, hchange⟩ := List.mem_filterMap.1 hch
  obtain ⟨_, _, _, _, _, _, hkind⟩ := Compared.change?_some hchange
  exact hkind

/-! ### Batches -/

/-- **Reports add up.** The report of a replay accounts for every application of its batch, and so
does that of an impact analysis. -/
theorem reports_balance (s : Simulation) (c old new : Configuration) (batch : List Application) :
    (∀ r, s.replay c batch = .ok r → s.Accounts c batch r) ∧
      ∀ i, s.impact old new batch = .ok i → i.total = batch.length ∧ i.Balanced := by
  constructor
  · intro r hr
    obtain ⟨_, hr⟩ := then_ok_iff.1 hr
    cases hr
    exact accounts_replayReport s c batch
  · intro i hi
    obtain ⟨_, hi⟩ := then_ok_iff.1 hi
    cases hi
    exact ⟨List.length_map _, balanced_impactReport _⟩

/-- A decline that is an approval now, an application that cannot be decided, and an approval. -/
def recordedBatch : List Application :=
  [{ lendingApplication with storedDecision := some .decline },
    unscoredApplication,
    { lendingApplication with id := "A-3", storedDecision := some .approve }]

theorem reports_balance_recorded : ∃ r i,
    lendingEngine.simulation.replay lendingConfiguration recordedBatch = .ok r ∧
      lendingEngine.simulation.impact lendingConfiguration bandedConfiguration recordedBatch =
          .ok i ∧
        lendingEngine.simulation.Accounts lendingConfiguration recordedBatch r ∧
        r.changed = [⟨"A-1", .decline, .approve⟩] ∧ r.Moves ∧ i.total = 3 ∧ i.Balanced := by
  have hreplay : lendingEngine.simulation.replay lendingConfiguration recordedBatch = .ok _ :=
    replay_ok (by decide)
  have himpact : lendingEngine.simulation.impact lendingConfiguration bandedConfiguration
      recordedBatch = .ok _ := impact_ok (by decide)
  obtain ⟨haccounts, hbalanced⟩ := reports_balance lendingEngine.simulation lendingConfiguration
    lendingConfiguration bandedConfiguration recordedBatch
  have hr := haccounts _ hreplay
  obtain ⟨htotal, hi⟩ := hbalanced _ himpact
  refine ⟨_, _, hreplay, himpact, hr, by decide +kernel, hr.moves ?_, htotal, hi⟩
  refine List.forall_mem_cons.2 ⟨fun _ => rfl, List.forall_mem_cons.2 ⟨fun hdecided => ?_, ?_⟩⟩
  · rw [decision?, decide_unscoredApplication] at hdecided
    cases hdecided
  · exact List.forall_mem_singleton.2 fun _ => rfl

end Simulation

end Lending
