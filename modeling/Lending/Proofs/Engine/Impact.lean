import Lending.Proofs.Configuration
import Lending.Proofs.Engine.Counting

/-! Impact analyses as replays.

An impact analysis decides a batch under two configurations and tells where they differ. A replay
decides it under one and tells where that differs from what is stored. With the decisions of the
old configuration stored, the two tell the same: a decision reads nothing of what is stored but the
arm, so the replay makes the decisions of the new configuration, and an application that the old
configuration could not decide has no decision stored that could be another. -/
namespace Lending

/-- A change as a replay reports it. -/
def ImpactChange.outcomeChange (c : ImpactChange) : OutcomeChange :=
  ⟨c.applicationId, c.old, c.new⟩

/-- No application was decided differently. -/
structure ImpactReport.Unmoved (r : ImpactReport) : Prop where
  changes : r.changes = []
  newlyApproved : r.newlyApproved = 0
  newlyDeclined : r.newlyDeclined = 0
  newlyReferred : r.newlyReferred = 0
  unchanged : r.unchanged = r.evaluated

namespace Simulation
open Lending.Configuration

/-- What a configuration decides on an application, if it does. -/
def decision? (s : Simulation) (c : Configuration) (a : Application) : Option Decision :=
  (s.decide c a).toOption.map fun d => d.outcome.decision

/-- The application with a configuration's decision in place of the stored one. -/
def restamped (s : Simulation) (c : Configuration) (a : Application) : Application :=
  { a with storedDecision := s.decision? c a }

/-! ### One application -/

/-- The decision that is made again against the stored one of another configuration. -/
theorem change?_stamped (a : Application) (old new : Except Failure Decided) :
    Replayed.change? ⟨{ a with storedDecision := old.toOption.map fun d => d.outcome.decision },
        new.map fun d => d.outcome.decision⟩ =
      (Compared.change? ⟨a, old, new⟩).map ImpactChange.outcomeChange := by
  cases old with
  | error e => rfl
  | ok o =>
    cases new with
    | error e => rfl
    | ok n =>
      simp only [Replayed.change?, Compared.change?, Except.toOption, Except.map, Option.map_some]
      split <;> rfl

/-- A decision reads the arm of an application, and not the stored decision. -/
theorem decide_restamped (s : Simulation) (old new : Configuration) (a : Application) :
    s.decide new (s.restamped old a) = s.decide new a :=
  rfl

theorem change?_restamped (s : Simulation) (old new : Configuration) (a : Application) :
    (s.again new (s.restamped old a)).change? =
      (s.compare old new a).change?.map ImpactChange.outcomeChange := by
  rw [again, decide_restamped]
  exact change?_stamped a (s.decide old a) (s.decide new a)

/-- Between a configuration and itself there is no change. -/
theorem change?_self (s : Simulation) (c : Configuration) (a : Application) :
    (s.compare c c a).change? = none := by
  refine Option.eq_none_iff_forall_ne_some.2 fun ch hch => ?_
  obtain ⟨old, new, hold, hnew, hchold, hchnew, hne, _⟩ := Compared.change?_some hch
  cases hold.symm.trans hnew
  exact hne (hchold.trans hchnew.symm)

/-! ### Reports -/

theorem checkSize_ok {s : Simulation} {batch : List Application}
    (h : batch.length ≤ s.options.maxSize.toNat) : s.checkSize batch = .ok () :=
  if_neg (Nat.not_lt.2 h)

theorem changed_restamped (s : Simulation) (old new : Configuration) (batch : List Application) :
    (replayReport ((batch.map (s.restamped old)).map (s.again new))).changed =
      (impactReport (batch.map (s.compare old new))).changes.map ImpactChange.outcomeChange := by
  have hreplay :=
    (ReplayCounters.counts_run ((batch.map (s.restamped old)).map (s.again new))).changed
  have himpact := (ImpactCounters.counts_run (batch.map (s.compare old new))).changes
  rw [replayReport, ReplayCounters.report, hreplay, impactReport, ImpactCounters.report, himpact]
  simp only [List.filterMap_map, List.map_filterMap]
  exact List.filterMap_congr fun a _ => s.change?_restamped old new a

/-- Nothing moves between a configuration and itself. -/
theorem unmoved_self (s : Simulation) (c : Configuration) (batch : List Application) :
    (impactReport (batch.map (s.compare c c))).Unmoved := by
  have hcounts := ImpactCounters.counts_run (batch.map (s.compare c c))
  have hchanges : (ImpactCounters.run (batch.map (s.compare c c))).changes.toList = [] := by
    rw [hcounts.changes]
    refine List.filterMap_eq_nil_iff.2 fun row hrow => ?_
    obtain ⟨a, _, rfl⟩ := List.mem_map.1 hrow
    exact s.change?_self c a
  have hnewly (d : Decision) : (impactReport (batch.map (s.compare c c))).newly d = 0 := by
    rw [impactReport, hcounts.newly, hchanges, List.countP_nil]
  have hcompared := hcounts.compared
  rw [← Array.length_toList, hchanges, List.length_nil, Nat.zero_add] at hcompared
  exact ⟨hchanges, hnewly .approve, hnewly .decline, hnewly .refer, hcompared⟩

/-! ### Batches -/

/-- **An impact analysis tells what a replay tells** of the old configuration's decisions, in the
same order; of a configuration beside itself it tells that nothing has moved. -/
theorem impact_replays (s : Simulation) (old new : Configuration) {batch : List Application}
    (hsize : batch.length ≤ s.options.maxSize.toNat) :
    (∃ i r, s.impact old new batch = .ok i ∧
      s.replay new (batch.map (s.restamped old)) = .ok r ∧
        r.changed = i.changes.map ImpactChange.outcomeChange) ∧
    ∀ c, ∃ i, s.impact c c batch = .ok i ∧ i.Unmoved := by
  have himpact (old new : Configuration) :
      s.impact old new batch = .ok (impactReport (batch.map (s.compare old new))) :=
    then_ok_iff.2 ⟨checkSize_ok hsize, rfl⟩
  have hreplay : s.replay new (batch.map (s.restamped old)) =
      .ok (replayReport ((batch.map (s.restamped old)).map (s.again new))) :=
    then_ok_iff.2 ⟨checkSize_ok (by rwa [List.length_map]), rfl⟩
  constructor
  · exact ⟨_, _, himpact old new, hreplay, s.changed_restamped old new batch⟩
  · exact fun c => ⟨_, himpact c c, s.unmoved_self c batch⟩

/-- The small configuration with score bands for new borrowers. -/
def bandedConfiguration : Configuration :=
  { lendingConfiguration with
    strategies := [("repeat_v2", .ofMode "repeat_v2" .sequential),
      ("standard_v1", { Strategy.ofMode "standard_v1" .dualPath with
        cutoffs := [⟨"prime", 700, .approve⟩] })] }

/-- Where bands ask for a score, the application is referred that was approved without one. -/
theorem impact_replays_banded :
    [lendingApplication].length ≤ lendingEngine.simulation.options.maxSize.toNat ∧
    (∃ i r, lendingEngine.simulation.impact lendingConfiguration bandedConfiguration
          [lendingApplication] = .ok i ∧
      lendingEngine.simulation.replay bandedConfiguration
          [lendingEngine.simulation.restamped lendingConfiguration lendingApplication] = .ok r ∧
        r.changed = i.changes.map ImpactChange.outcomeChange ∧
        r.changed = [⟨"A-1", .approve, .refer⟩]) ∧
    ∀ c, ∃ i, lendingEngine.simulation.impact c c [lendingApplication] = .ok i ∧ i.Unmoved := by
  have hsize : [lendingApplication].length ≤ lendingEngine.simulation.options.maxSize.toNat := by
    decide
  obtain ⟨⟨i, r, hi, hr, hchanged⟩, hself⟩ :=
    impact_replays lendingEngine.simulation lendingConfiguration bandedConfiguration hsize
  refine ⟨hsize, ⟨i, r, hi, hr, hchanged, ?_⟩, hself⟩
  cases hr
  decide +kernel

end Simulation

end Lending
