import Lending.Proofs.Configuration
import Lending.Proofs.Engine.Counting
import Lending.Proofs.Number.Quotient

/-! Replaying decisions that were stored.

A live decision takes the arm of an application from what was recorded with it, or from its
bucket; the replay finds the arm that the live decision took recorded. So both go to the same
target, whatever the challenger's share has become: an application that was routed to the champion
brings its arm along, and any other goes where it is routed, under every split with the same
champion. Nothing else of a decision depends on the split, so a replay makes each decision again,
and a report on such rows counts no change, no error and a full agreement. -/
namespace Lending

/-- The simulations that make an engine's decisions again: its own, and those in which its
challenger has another share. -/
inductive Engine.Replays (e : Engine) : Simulation → Prop
  | own : e.Replays e.simulation
  | share (s : Split) (split : e.split = some s) (percent : Nat) (valid : percent ≤ 100) :
      e.Replays { e.simulation with split := some { s with percent := percent } }

namespace Configuration

/-! ### The arm of a stored decision -/

theorem allot_champion (a : Allotment) {id : String} (h : a.split.champion = id) :
    allot (some a) (.strategy id) = (.strategy (a.split.strategyFor a.arm), some a.arm) := by
  simp only [allot, Allotment.redirect, Allotment.armAt?, if_pos h]

theorem allot_of_ne (a : Allotment) {id : String} (h : a.split.champion ≠ id) :
    allot (some a) (.strategy id) = (.strategy id, none) := by
  simp only [allot, Allotment.redirect, Allotment.armAt?, if_neg h]

/-- With the arm recorded that it was decided on, an application goes where it went before, also
when the challenger's share is another. -/
theorem allot_recorded (s : Split) (percent bucket : Nat) (recorded : Option Arm)
    (target : Target) :
    allot (some ⟨{ s with percent := percent }, bucket,
        (allot (some ⟨s, bucket, recorded⟩) target).2⟩) target =
      allot (some ⟨s, bucket, recorded⟩) target := by
  cases target with
  | assessment id => rfl
  | strategy id =>
    by_cases hid : s.champion = id
    · rw [allot_champion ⟨s, bucket, recorded⟩ hid, allot_champion _ hid]
      cases Allotment.arm ⟨s, bucket, recorded⟩ <;> rfl
    · rw [allot_of_ne ⟨s, bucket, recorded⟩ hid, allot_of_ne _ hid]

/-- A route that was finished is finished the same way by any allotment that sends its target to
the same place. -/
theorem finish_of_allot {c : Configuration} {card : Scorecard} {p : Applicant}
    {allotment allotment' : Option Allotment} {r : Routing} {d : Decided}
    (hd : c.finish card p allotment r = .ok d)
    (h : ∀ target, d.arm = (allot allotment target).2 →
      allot allotment' target = allot allotment target) :
    c.finish card p allotment' r = .ok d := by
  unfold finish at hd ⊢
  cases htarget : r.target? with
  | none => simp [htarget] at hd
  | some target =>
    simp only [htarget] at hd ⊢
    have harm : d.arm = (allot allotment target).2 := by
      obtain ⟨o, _, hd⟩ := bind_ok_iff.1 hd
      cases hd
      rfl
    rw [h target harm]
    exact hd

end Configuration

/-! ### Making a decision again -/

namespace Engine
open Lending.Configuration
variable {e : Engine}

theorem decideApplication_ok {a : Application} {r : DecisionRecord} :
    (e.decideApplication a).outcome = .ok r ↔ ∃ d,
      e.configuration.decide e.scorecard a.applicant a.context
          (Allotment.ofApplication e.split a) = .ok d ∧ r = ⟨some a.id, d⟩ := by
  rw [decideApplication, Noted.outcome_bind, bind_ok_iff]
  constructor
  · rintro ⟨d, hd, hr⟩
    cases hr
    exact ⟨d, hd, rfl⟩
  · rintro ⟨d, hd, rfl⟩
    exact ⟨d, hd, rfl⟩

/-- A stored application is sent where the engine sent it. -/
theorem Replays.allot_again {sim : Simulation} (hsim : e.Replays sim) {a : Application}
    {d : Decided} {target : Target}
    (harm : d.arm = (allot (Allotment.ofApplication e.split a) target).2) :
    allot (Allotment.ofApplication sim.split (a.withDecision ⟨some a.id, d⟩)) target =
      allot (Allotment.ofApplication e.split a) target := by
  cases hsim with
  | own =>
    cases hsplit : e.split with
    | none => simp [simulation, hsplit, Allotment.ofApplication]
    | some s =>
      rw [hsplit] at harm
      simp only [simulation, hsplit, Allotment.ofApplication, Option.map_some,
        Application.withDecision, harm]
      exact allot_recorded s s.percent (Split.bucket a.id) a.arm target
  | share s hsplit percent _ =>
    rw [hsplit] at harm ⊢
    simp only [Allotment.ofApplication, Option.map_some, Application.withDecision, harm]
    exact allot_recorded s percent (Split.bucket a.id) a.arm target

/-- **A stored decision is made again.** -/
theorem Replays.decide_again {sim : Simulation} (hsim : e.Replays sim) {a : Application}
    {r : DecisionRecord} (h : (e.decideApplication a).outcome = .ok r) :
    sim.decide e.configuration (a.withDecision r) = .ok r.decided := by
  obtain ⟨d, hd, rfl⟩ := decideApplication_ok.1 h
  obtain ⟨routing, hrouting, hfinish⟩ := bind_ok_iff.1 hd
  have hcard : sim.scorecard = e.scorecard := by cases hsim <;> rfl
  have hagain := finish_of_allot hfinish fun target harm => hsim.allot_again harm
  rw [Simulation.decide, hcard]
  exact bind_ok_iff.2 ⟨routing, hrouting, hagain⟩

end Engine

/-! ### Reports without a change -/

namespace Simulation

/-- The decision that was stored was made again. -/
def Replayed.Agrees (row : Replayed) : Prop :=
  ∃ d, row.application.storedDecision = some d ∧ row.result = .ok d

namespace Replayed.Agrees
variable {row : Replayed}

theorem change?_eq (h : row.Agrees) : row.change? = none := by
  obtain ⟨d, hstored, hresult⟩ := h
  simp [change?, hstored, hresult]

theorem failure?_eq (h : row.Agrees) : row.failure? = none := by
  obtain ⟨d, _, hresult⟩ := h
  simp [failure?, hresult]

theorem stored?_eq (h : row.Agrees) : row.stored? = row.new? := by
  obtain ⟨d, hstored, hresult⟩ := h
  simp [stored?, new?, hstored, hresult]

end Replayed.Agrees

theorem agreement_of_unchanged {n : Nat} (hn : n < 2 ^ 64) : agreement n 0 = 1 := by
  unfold agreement
  by_cases hzero : n = 0
  · rw [if_pos hzero]
  · have hpos : 0 < n.toUInt64.toNat := by
      rw [Nat.toUInt64_eq, UInt64.toNat_ofNat_of_lt' hn]
      exact Nat.pos_of_ne_zero hzero
    rw [if_neg hzero, Nat.sub_zero]
    exact Number.toFloat_div_self hpos

/-- Every application was decided, and each decision is the stored one. -/
structure FullAgreement (report : ReplayReport) : Prop where
  changed : report.changed = []
  errors : report.errors = []
  evaluated : report.evaluated = report.total
  counts : report.storedCounts = report.newCounts
  rate : report.agreementRate = 1

theorem fullAgreement_of_agrees {rows : List Replayed} (hrows : ∀ row ∈ rows, row.Agrees)
    (hlength : rows.length < 2 ^ 64) : FullAgreement (replayReport rows) := by
  have hcounts := ReplayCounters.counts_run rows
  have hchanged : (replayReport rows).changed = [] :=
    hcounts.changed.trans
      (List.filterMap_eq_nil_iff.2 fun row hrow => (hrows row hrow).change?_eq)
  have herrors : (replayReport rows).errors = [] :=
    hcounts.errors.trans
      (List.filterMap_eq_nil_iff.2 fun row hrow => (hrows row hrow).failure?_eq)
  have hevaluated : (replayReport rows).evaluated = rows.length := by
    have hsettled : (replayReport rows).evaluated + (replayReport rows).errors.length =
      rows.length := hcounts.settled
    rwa [herrors] at hsettled
  have htallies : (replayReport rows).storedCounts = (replayReport rows).newCounts := by
    refine Tally.ext_get fun d => (hcounts.stored d).trans ((hcounts.made d).trans ?_).symm
    refine List.countP_congr fun row hrow => ?_
    rw [(hrows row hrow).stored?_eq]
  have hcompared : (ReplayCounters.run rows).compared = rows.length := by
    rw [← hcounts.compared, ← hevaluated]
    exact (congrArg Tally.total htallies).trans hcounts.counted
  have hsize : (ReplayCounters.run rows).changed.size = 0 := congrArg List.length hchanged
  refine ⟨hchanged, herrors, hevaluated, htallies, ?_⟩
  rw [replayReport, ReplayCounters.report, hcompared, hsize]
  exact agreement_of_unchanged hlength

end Simulation

/-! ### Parity of live decisions and replays -/

namespace Engine
open Lending.Configuration Simulation

/-- An application that is replayed is one that was decided, with its decision. -/
theorem decided_of_mem_stamped {e : Engine} {apps : List Application}
    {records : List DecisionRecord}
    (h : List.Forall₂ (fun a r => (e.decideApplication a).outcome = .ok r) apps records) :
    ∀ b ∈ List.zipWith Application.withDecision apps records, ∃ a r,
      b = a.withDecision r ∧ (e.decideApplication a).outcome = .ok r := by
  induction h with
  | nil => exact fun b hb => absurd hb List.not_mem_nil
  | @cons a r _ _ hdecided _ ih =>
    intro b hb
    rcases List.mem_cons.1 hb with rfl | hb
    · exact ⟨a, r, rfl, hdecided⟩
    · exact ih b hb

/-- **Replaying stored decisions agrees fully**, under the engine's own split and under those in
which its challenger has another share. -/
theorem replay_agrees {e : Engine} {apps : List Application} {records : List DecisionRecord}
    (hsize : apps.length ≤ e.options.maxSize.toNat)
    (hdecided : List.Forall₂ (fun a r => (e.decideApplication a).outcome = .ok r) apps records)
    {sim : Simulation} (hsim : e.Replays sim) : ∃ report,
      sim.replay e.configuration (List.zipWith Application.withDecision apps records) =
          .ok report ∧
        report.total = apps.length ∧ FullAgreement report := by
  let batch := List.zipWith Application.withDecision apps records
  have hbatch : batch.length = apps.length := by
    rw [List.length_zipWith, ← hdecided.length_eq, Nat.min_self]
  have hrows : ∀ row ∈ batch.map (sim.again e.configuration), row.Agrees := by
    intro row hrow
    obtain ⟨b, hb, rfl⟩ := List.mem_map.1 hrow
    obtain ⟨a, r, rfl, hr⟩ := decided_of_mem_stamped hdecided b hb
    refine ⟨r.decision, rfl, ?_⟩
    rw [again, hsim.decide_again hr]
    rfl
  have hlength : (batch.map (sim.again e.configuration)).length = apps.length := by
    rw [List.length_map, hbatch]
  have hcheck : sim.checkSize batch = .ok () := by
    have hoptions : sim.options = e.options := by cases hsim <;> rfl
    rw [checkSize, hoptions, hbatch, if_neg (Nat.not_lt.2 hsize)]
  refine ⟨replayReport (batch.map (sim.again e.configuration)), ?_, hlength, ?_⟩
  · exact then_ok_iff.2 ⟨hcheck, rfl⟩
  · refine fullAgreement_of_agrees hrows ?_
    rw [hlength]
    exact Nat.lt_of_le_of_lt hsize e.options.maxSize.toNat_lt

/-- A challenger's decision, replayed after the challenger has lost its share. -/
theorem replay_agrees_challenger : ∃ r,
    (lendingEngine.decideApplication lendingApplication).outcome = .ok r ∧ ∃ report,
      Simulation.replay
            { lendingEngine.simulation with split := some { lendingSplit with percent := 0 } }
            lendingConfiguration [lendingApplication.withDecision r] =
          .ok report ∧
        report.total = 1 ∧ FullAgreement report := by
  have hroute : Tree.lendingTree.route Tree.repeatCustomer = .ok Tree.repeatRoute := by cbv
  obtain ⟨d, hd⟩ : ∃ d, lendingConfiguration.finish .ofApplication .empty
      (Allotment.ofApplication (some lendingSplit) lendingApplication) Tree.repeatRoute = .ok d :=
    ⟨_, rfl⟩
  have hdecided : (lendingEngine.decideApplication lendingApplication).outcome =
      .ok ⟨some "A-1", d⟩ :=
    decideApplication_ok.2 ⟨d, bind_ok_iff.2 ⟨_, (mapError_ok_iff _).2 hroute, hd⟩, rfl⟩
  exact ⟨_, hdecided, replay_agrees (by decide) (.cons hdecided .nil)
    (.share lendingSplit rfl 0 (by decide))⟩

end Engine

end Lending
