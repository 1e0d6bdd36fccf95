import Lending.Proofs.Engine.Impact

/-! Batches, one after the other.

A replay and an impact analysis decide each application by itself, so the report on two batches in
a row follows from the reports on the two: numbers add up, and lists stand one after the other. The
rate of agreement is no sum, it is computed again from the sums. A batch is refused for its length
and for nothing else. An application that cannot be decided is counted in the total and listed as a
failure; what is reported of all others stays the same. -/
namespace Lending

/-! ### Reports one after the other -/

/-- The report on two batches in a row. -/
def ReplayReport.append (r r' : ReplayReport) : ReplayReport :=
  let stored := r.storedCounts.add r'.storedCounts
  let changed := r.changed ++ r'.changed
  { total := r.total + r'.total
    evaluated := r.evaluated + r'.evaluated
    storedCounts := stored
    newCounts := r.newCounts.add r'.newCounts
    changed := changed
    errors := r.errors ++ r'.errors
    agreementRate := Simulation.agreement stored.total changed.length }

/-- The report on two batches in a row. -/
def ImpactReport.append (r r' : ImpactReport) : ImpactReport where
  total := r.total + r'.total
  evaluated := r.evaluated + r'.evaluated
  newlyApproved := r.newlyApproved + r'.newlyApproved
  newlyDeclined := r.newlyDeclined + r'.newlyDeclined
  newlyReferred := r.newlyReferred + r'.newlyReferred
  unchanged := r.unchanged + r'.unchanged
  changes := r.changes ++ r'.changes
  errors := r.errors ++ r'.errors

namespace Simulation
open Lending.Configuration

theorem replayReport_append (rows rows' : List Replayed) :
    replayReport (rows ++ rows') = (replayReport rows).append (replayReport rows') := by
  have hcompared := (ReplayCounters.counts_run rows).compared
  have hcompared' := (ReplayCounters.counts_run rows').compared
  simp only [replayReport, ReplayCounters.run_append, ReplayCounters.report, ReplayCounters.append,
    ReplayReport.append, Tally.total_add, hcompared, hcompared', Array.toList_append,
    Array.size_append, List.length_append, Array.length_toList]

theorem impactReport_append (rows rows' : List Compared) :
    impactReport (rows ++ rows') = (impactReport rows).append (impactReport rows') := by
  simp only [impactReport, ImpactCounters.run_append, ImpactCounters.report, ImpactCounters.append,
    ImpactReport.append, Array.toList_append, List.length_append]

/-! ### Applications that cannot be decided -/

theorem decide_of_route_error {s : Simulation} {c : Configuration} {a : Application}
    {e : PolicyError} (h : c.tree.route a.context = .error e) :
    s.decide c a = .error (.policy e) := by
  rw [Simulation.decide, Configuration.decide, h]
  rfl

/-- What an impact analysis lists of an application that one of the configurations cannot decide:
the failure of the old one if there is one. -/
inductive FailsUnder (s : Simulation) (old new : Configuration) (a : Application) :
    BatchFailure → Prop
  | old {e : Failure} (h : s.decide old a = .error e) :
    FailsUnder s old new a ⟨a.id, s!"old configuration: {e.message}"⟩
  | new {d : Decided} {e : Failure} (decides : s.decide old a = .ok d)
    (h : s.decide new a = .error e) :
    FailsUnder s old new a ⟨a.id, s!"new configuration: {e.message}"⟩

/-- An application that fails adds itself to the total and its failure to the list. -/
theorem replayReport_cons_of_failed {row : Replayed} {f : BatchFailure} (h : row.failure? = some f)
    (rows : List Replayed) :
    replayReport (row :: rows) =
      { replayReport rows with
        total := rows.length + 1
        errors := f :: (replayReport rows).errors } := by
  simp only [replayReport, ReplayCounters.run_cons_of_failed h, ReplayCounters.report,
    Array.toList_append, List.singleton_append, List.length_cons]

theorem FailsUnder.failure?_eq {s : Simulation} {old new : Configuration} {a : Application}
    {f : BatchFailure} (h : s.FailsUnder old new a f) :
    (s.compare old new a).failure? = some f := by
  cases h with
  | old h => simp only [compare, Compared.failure?, h]
  | new decides h => simp only [compare, Compared.failure?, decides, h]

theorem impactReport_cons_of_failed {row : Compared} {f : BatchFailure} (h : row.failure? = some f)
    (rows : List Compared) :
    impactReport (row :: rows) =
      { impactReport rows with
        total := rows.length + 1
        errors := f :: (impactReport rows).errors } := by
  simp only [impactReport, ImpactCounters.run_cons_of_failed h, ImpactCounters.report,
    Array.toList_append, List.singleton_append, List.length_cons]

/-! ### Batches -/

/-- An operation on batches makes of two in a row what it makes of each, put together. -/
def Composes {ρ : Type} (run : List Application → Except Failure ρ) (append : ρ → ρ → ρ)
    (xs ys : List Application) : Prop :=
  ∃ r r', run xs = .ok r ∧ run ys = .ok r' ∧ run (xs ++ ys) = .ok (append r r')

/-- An operation refuses the batches that are too large, and no others. -/
def RefusesBySize {ρ : Type} (run : List Application → Except Failure ρ) (max : Nat) : Prop :=
  ∀ batch e, run batch = .error e ↔ max < batch.length ∧ e = .batchTooLarge batch.length max

variable {s : Simulation} {c old new : Configuration} {batch : List Application}

theorem refusesBySize_checked {ρ : Type} (report : List Application → ρ) :
    RefusesBySize (fun batch => s.checkSize batch >>= fun _ => pure (report batch))
      s.options.maxSize.toNat := by
  intro batch e
  by_cases h : s.options.maxSize.toNat < batch.length
  · have hcheck : s.checkSize batch =
        .error (.batchTooLarge batch.length s.options.maxSize.toNat) := if_pos h
    simp only [hcheck, bind, Except.bind, Except.error.injEq, h, true_and]
    exact eq_comm
  · have hcheck : s.checkSize batch = .ok () := checkSize_ok (Nat.le_of_not_lt h)
    simp only [hcheck, bind, Except.bind, pure, Except.pure, h, false_and, reduceCtorEq]

theorem replay_ok (h : batch.length ≤ s.options.maxSize.toNat) :
    s.replay c batch = .ok (replayReport (batch.map (s.again c))) :=
  then_ok_iff.2 ⟨checkSize_ok h, rfl⟩

theorem impact_ok (h : batch.length ≤ s.options.maxSize.toNat) :
    s.impact old new batch = .ok (impactReport (batch.map (s.compare old new))) :=
  then_ok_iff.2 ⟨checkSize_ok h, rfl⟩

/-- How a simulation's operations go together with putting batches in a row. -/
structure Batchwise (s : Simulation) (c old new : Configuration) (xs ys : List Application) :
    Prop where
  replay : Composes (s.replay c) ReplayReport.append xs ys
  impact : Composes (s.impact old new) ImpactReport.append xs ys
  /-- An application that cannot be decided, somewhere in a batch, leaves all else of the report
  as it is without it. -/
  replay_failed : ∀ a e, s.decide c a = .error e →
    xs.length + ys.length < s.options.maxSize.toNat →
      ∃ r r', s.replay c xs = .ok r ∧ s.replay c ys = .ok r' ∧
        s.replay c (xs ++ ys) = .ok (r.append r') ∧
        s.replay c (xs ++ a :: ys) = .ok { r.append r' with
          total := (r.append r').total + 1
          errors := r.errors ++ ⟨a.id, e.message⟩ :: r'.errors }
  impact_failed : ∀ a f, s.FailsUnder old new a f →
    xs.length + ys.length < s.options.maxSize.toNat →
      ∃ r r', s.impact old new xs = .ok r ∧ s.impact old new ys = .ok r' ∧
        s.impact old new (xs ++ ys) = .ok (r.append r') ∧
        s.impact old new (xs ++ a :: ys) = .ok { r.append r' with
          total := (r.append r').total + 1
          errors := r.errors ++ f :: r'.errors }

/-- **Batches compose, and applications are decided apart.** The report on two batches in a row is
the reports on the two, put together; a batch is refused exactly if it is too large; and an
application that fails changes nothing that is reported of any other. -/
theorem batches_compose (s : Simulation) (c old new : Configuration) {xs ys : List Application}
    (hsize : xs.length + ys.length ≤ s.options.maxSize.toNat) :
    Batchwise s c old new xs ys ∧ RefusesBySize (s.replay c) s.options.maxSize.toNat ∧
      RefusesBySize (s.impact old new) s.options.maxSize.toNat := by
  have hxs : xs.length ≤ s.options.maxSize.toNat := by omega
  have hys : ys.length ≤ s.options.maxSize.toNat := by omega
  have hboth : (xs ++ ys).length ≤ s.options.maxSize.toNat := by rwa [List.length_append]
  have hreplay : s.replay c (xs ++ ys) = .ok ((replayReport (xs.map (s.again c))).append
      (replayReport (ys.map (s.again c)))) := by
    rw [replay_ok hboth, List.map_append, replayReport_append]
  have himpact : s.impact old new (xs ++ ys) =
      .ok ((impactReport (xs.map (s.compare old new))).append
        (impactReport (ys.map (s.compare old new)))) := by
    rw [impact_ok hboth, List.map_append, impactReport_append]
  refine ⟨?_, refusesBySize_checked _, refusesBySize_checked _⟩
  refine
    { replay := ⟨_, _, replay_ok hxs, replay_ok hys, hreplay⟩
      impact := ⟨_, _, impact_ok hxs, impact_ok hys, himpact⟩
      replay_failed := fun a e hfails hroom =>
        ⟨_, _, replay_ok hxs, replay_ok hys, hreplay, ?replay⟩
      impact_failed := fun a f hfails hroom =>
        ⟨_, _, impact_ok hxs, impact_ok hys, himpact, ?impact⟩ }
  case replay =>
    have hall : (xs ++ a :: ys).length ≤ s.options.maxSize.toNat := by
      rw [List.length_append, List.length_cons]
      omega
    have hrow : (s.again c a).failure? = some ⟨a.id, e.message⟩ := by
      rw [again, hfails]
      rfl
    rw [replay_ok hall, List.map_append, List.map_cons, replayReport_append,
      replayReport_cons_of_failed hrow]
    rfl
  case impact =>
    have hall : (xs ++ a :: ys).length ≤ s.options.maxSize.toNat := by
      rw [List.length_append, List.length_cons]
      omega
    rw [impact_ok hall, List.map_append, List.map_cons, impactReport_append,
      impactReport_cons_of_failed hfails.failure?_eq]
    rfl

/-- A new borrower without a score, for whom the tree has no branch. -/
def unscoredApplication : Application :=
  .new "A-2" .empty .empty

theorem decide_unscoredApplication :
    lendingEngine.simulation.decide lendingConfiguration unscoredApplication =
      .error (.policy (.danglingBranch "gate" "Other")) := by
  have hroute : Tree.lendingTree.route .empty = .error (.danglingBranch "gate" "Other") := by cbv
  exact decide_of_route_error hroute

/-- Between two applications that are decided, one that is not. -/
theorem batches_compose_unscored :
    [lendingApplication].length + [lendingApplication].length ≤
        lendingEngine.simulation.options.maxSize.toNat ∧
      Batchwise lendingEngine.simulation lendingConfiguration lendingConfiguration
        bandedConfiguration [lendingApplication] [lendingApplication] ∧
      ∃ report, lendingEngine.simulation.replay lendingConfiguration
          [lendingApplication, unscoredApplication, lendingApplication] = .ok report ∧
        report.total = 3 ∧
        ⟨"A-2", (Failure.policy (.danglingBranch "gate" "Other")).message⟩ ∈ report.errors := by
  have hsize : [lendingApplication].length + [lendingApplication].length ≤
      lendingEngine.simulation.options.maxSize.toNat := by decide
  obtain ⟨hbatch, -, -⟩ := batches_compose lendingEngine.simulation lendingConfiguration
    lendingConfiguration bandedConfiguration hsize
  obtain ⟨r, r', hr, hr', -, h⟩ :=
    hbatch.replay_failed _ _ decide_unscoredApplication (by decide)
  refine ⟨hsize, hbatch, _, h, ?_, List.mem_append_right _ (List.mem_cons_self ..)⟩
  cases hr
  cases hr'
  rfl

end Simulation

end Lending
