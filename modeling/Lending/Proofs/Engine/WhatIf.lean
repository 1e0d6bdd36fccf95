import Lending.Proofs.Engine.Accounts
import Lending.Proofs.Engine.Parity
import Lending.Proofs.Record

/-! Traces as live decisions.

Before a trace decides, its overrides are written into copies of both records. Two things can keep
that from happening: a record that has an attribute of a name and cannot take its value, and a name
that neither record has an attribute of. The first is noticed before the second, whichever comes
first among the overrides. With the overrides written there is nothing left of the trace: it is the
decision that the engine makes on the application with the copies, and it tells a change where a
replay of that application would. -/
namespace Lending

/-- One of the records cannot take the override. -/
def Application.Refuses (e : String × Value) : Prop :=
  Record.Refuses ApplicantAttribute e ∨ Record.Refuses ContextAttribute e

/-- One of the records has an attribute of the name. -/
def Application.Knows (key : String) : Prop :=
  Record.Knows ApplicantAttribute key ∨ Record.Knows ContextAttribute key

instance (key : String) : Decidable (Application.Knows key) :=
  inferInstanceAs (Decidable (_ ∨ _))

/-- The application with the overrides written into both of its records. -/
def Application.revised (a : Application) (overrides : Dict Value) : Application :=
  { a with
    applicant := a.applicant.revised overrides
    context := a.context.revised overrides }

/-- All overrides can be written. -/
structure Application.Takes (overrides : Dict Value) : Prop where
  accepted : ∀ e ∈ overrides, ¬ Application.Refuses e
  known : ∀ key ∈ overrides.keys, Application.Knows key

/-- The first of the overridden names that neither record has an attribute of. -/
structure FirstUnknown (overrides : Dict Value) (key : String) : Prop where
  mem : key ∈ overrides.keys
  unknown : ¬ Application.Knows key
  least : ∀ other ∈ overrides.keys, ¬ Application.Knows other → key ≤ other

theorem Engine.decideApplication_error {e : Engine} {a : Application} {failure : Failure} :
    (e.decideApplication a).outcome = .error failure ↔
      e.configuration.decide e.scorecard a.applicant a.context
        (Allotment.ofApplication e.split a) = .error failure := by
  rw [decideApplication, Noted.outcome_bind, Configuration.decideNoted]
  cases e.configuration.decide e.scorecard a.applicant a.context
      (Allotment.ofApplication e.split a) with
  | error failure' =>
    constructor
    · intro h
      cases h
      rfl
    · intro h
      cases h
      rfl
  | ok d =>
    constructor
    · intro h
      cases h
    · intro h
      cases h

/-! ### Writing the overrides -/

variable {overrides : Dict Value}

/-- A name is unknown if it comes back from both records. -/
theorem find?_unknown (overrides : Dict Value) :
    (overrides.keys.filter fun key => ¬ Record.Knows ApplicantAttribute key).find?
        (overrides.keys.filter fun key => ¬ Record.Knows ContextAttribute key).contains =
      overrides.keys.find? fun key => ¬ Application.Knows key := by
  rw [List.find?_filter]
  refine List.find?_congr fun key hkey => ?_
  simp [Application.Knows, hkey]

theorem firstUnknown_of_find? (hsorted : overrides.Sorted) {key : String}
    (h : overrides.keys.find? (fun key => ¬ Application.Knows key) = some key) :
    FirstUnknown overrides key := by
  obtain ⟨hunknown, before, after, hkeys, hbefore⟩ := List.find?_eq_some_iff_append.1 h
  have hordered : overrides.keys.Pairwise (· < ·) := List.pairwise_map.2 hsorted
  rw [hkeys] at hordered
  have hafter : ∀ other ∈ after, key < other :=
    (List.pairwise_cons.1 (List.pairwise_append.1 hordered).2.1).1
  refine ⟨List.mem_of_find?_eq_some h, of_decide_eq_true hunknown, fun other hother hmissing => ?_⟩
  -- All keys in front are known, and all behind are greater.
  rw [hkeys, List.mem_append, List.mem_cons] at hother
  rcases hother with hother | rfl | hother
  · have hknown := hbefore other hother
    simp [hmissing] at hknown
  · exact String.not_lt.1 (String.lt_irrefl _)
  · exact String.not_lt.1 (String.lt_asymm (hafter other hother))

namespace Simulation
open Lending.Configuration

theorem overridden_refused (a : Application) (h : ∃ e ∈ overrides, Application.Refuses e) :
    ∃ fault, overridden a overrides = .error (.data fault) := by
  obtain ⟨e, hmem, he⟩ := h
  unfold overridden
  by_cases happlicant : ∃ e ∈ overrides, Record.Refuses ApplicantAttribute e
  · obtain ⟨fault, hfault⟩ := a.applicant.withOverrides_error happlicant
    exact ⟨fault, by rw [hfault]; rfl⟩
  · have haccepts : ∀ e ∈ overrides, ¬ Record.Refuses ApplicantAttribute e := fun e hmem he =>
      happlicant ⟨e, hmem, he⟩
    have hcontext := he.resolve_left (haccepts e hmem)
    obtain ⟨fault, hfault⟩ := a.context.withOverrides_error ⟨e, hmem, hcontext⟩
    exact ⟨fault, by rw [a.applicant.withOverrides_ok haccepts, hfault]; rfl⟩

theorem overridden_accepted (a : Application) (h : ∀ e ∈ overrides, ¬ Application.Refuses e) :
    overridden a overrides =
      match overrides.keys.find? fun key => ¬ Application.Knows key with
      | some key => .error (.unknownOverride key)
      | none => .ok (a.revised overrides) := by
  have happlicant := a.applicant.withOverrides_ok fun e he => (not_or.1 (h e he)).1
  have hcontext := a.context.withOverrides_ok fun e he => (not_or.1 (h e he)).2
  rw [← find?_unknown, overridden, happlicant, hcontext]
  rfl

theorem overridden_taken (a : Application) (h : Application.Takes overrides) :
    overridden a overrides = .ok (a.revised overrides) := by
  have hfind : overrides.keys.find? (fun key => ¬ Application.Knows key) = none :=
    List.find?_eq_none.2 fun key hkey => by simp [h.known key hkey]
  rw [overridden_accepted a h.accepted, hfind]

/-! ### Deciding on the copies -/

/-- The engine with the scorecard and the split of a simulation. -/
def engine (s : Simulation) (c : Configuration) : Engine :=
  ⟨c, s.scorecard, s.split, s.options⟩

/-- A trace shows a decision on an application and whether a replay would call it a change. -/
structure Shows (s : Simulation) (c : Configuration) (a : Application) (overrides : Dict Value)
    (r : DecisionRecord) (t : Trace) : Prop where
  applicationId : t.applicationId = a.id ∧ r.applicationId = some a.id
  overrides : t.overrides = overrides
  storedDecision : t.storedDecision = a.storedDecision
  /-- The route, the outcome and the arm. -/
  decided : t.decided = r.decided
  changed : ∀ options : BatchOptions, 1 ≤ options.maxSize.toNat →
    ∃ report, Simulation.replay { s with options := options } c [a] = .ok report ∧
      (t.changed = true ↔ ∃ ch ∈ report.changed, ch.applicationId = a.id)

/-- A trace tells a change where the replay of a batch of one does. -/
theorem changed_iff {a : Application} {d : Decided} :
    (traceOf a overrides d).changed = true ↔
      ∃ ch ∈ (replayReport [⟨a, .ok d.outcome.decision⟩]).changed, ch.applicationId = a.id := by
  have hcounts := ReplayCounters.counts_run [⟨a, .ok d.outcome.decision⟩]
  rw [replayReport, ReplayCounters.report, hcounts.changed, List.filterMap_cons, traceOf,
    Replayed.change?]
  cases a.storedDecision with
  | none => simp
  | some old =>
    by_cases hsame : old = d.outcome.decision
    · simp [hsame]
    · simp [hsame]

/-- Once the overrides are written, a trace is the decision on the copies. -/
theorem trace_of_overridden {s : Simulation} {c : Configuration} {a b : Application}
    (h : overridden a overrides = .ok b) :
    s.trace c a overrides = s.decide c b >>= fun d => .ok (traceOf a overrides d) := by
  rw [trace, h]
  rfl

/-- What comes of a trace, in the order in which it is found out. -/
structure TracesLive (s : Simulation) (c : Configuration) (a : Application)
    (overrides : Dict Value) : Prop where
  refused : (∃ e ∈ overrides, Application.Refuses e) →
    ∃ fault, s.trace c a overrides = .error (.data fault)
  unknown : (∀ e ∈ overrides, ¬ Application.Refuses e) →
    (∃ key ∈ overrides.keys, ¬ Application.Knows key) →
      ∃ key, FirstUnknown overrides key ∧
        s.trace c a overrides = .error (.unknownOverride key)
  overridden : Application.Takes overrides →
    Simulation.overridden a overrides = .ok (a.revised overrides)
  decided : Application.Takes overrides →
    ∀ r, ((s.engine c).decideApplication (a.revised overrides)).outcome = .ok r →
      ∃ t, s.trace c a overrides = .ok t ∧ s.Shows c (a.revised overrides) overrides r t
  failed : Application.Takes overrides →
    ∀ e, ((s.engine c).decideApplication (a.revised overrides)).outcome = .error e →
      s.trace c a overrides = .error e
  /-- An attribute that both records have is overridden in both. -/
  shared : ∀ key ∈ overrides.keys, Record.Knows ApplicantAttribute key →
    Record.Knows ContextAttribute key →
      (a.revised overrides).applicant.lookup key = (a.revised overrides).context.lookup key

/-- **A trace is the live decision on the overridden application.** -/
theorem trace_decides (s : Simulation) (c : Configuration) (a : Application)
    (hsorted : overrides.Sorted) : s.TracesLive c a overrides := by
  refine
    { refused := fun hrefused => ?refused
      unknown := fun haccepts hunknown => ?unknown
      overridden := overridden_taken a
      decided := fun htakes r hr => ?decided
      failed := fun htakes e he => ?failed
      shared := fun key => lookup_revised_eq a.applicant a.context }
  case refused =>
    obtain ⟨fault, hfault⟩ := overridden_refused a hrefused
    exact ⟨fault, by rw [trace, hfault]; rfl⟩
  case unknown =>
    obtain ⟨key, hkey, hmissing⟩ := hunknown
    cases hfind : overrides.keys.find? (fun key => ¬ Application.Knows key) with
    | none =>
      have hknown := List.find?_eq_none.1 hfind key hkey
      simp [hmissing] at hknown
    | some first =>
      refine ⟨first, firstUnknown_of_find? hsorted hfind, ?_⟩
      rw [trace, overridden_accepted a haccepts, hfind]
      rfl
  case decided =>
    obtain ⟨d, hd, rfl⟩ := Engine.decideApplication_ok.1 hr
    have hdecide (options : BatchOptions) :
        Simulation.decide { s with options := options } c (a.revised overrides) = .ok d := hd
    -- The options bound the size of batches; no decision reads them.
    refine ⟨traceOf a overrides d, ?_, ⟨rfl, rfl⟩, rfl, rfl, rfl, fun options hroom => ?_⟩
    · rw [trace_of_overridden (overridden_taken a htakes), hdecide s.options]
      rfl
    · refine ⟨_, replay_ok hroom, ?_⟩
      rw [List.map_singleton, again, hdecide options]
      exact changed_iff
  case failed =>
    have hdecide : s.decide c (a.revised overrides) = .error e :=
      Engine.decideApplication_error.1 he
    rw [trace_of_overridden (overridden_taken a htakes), hdecide]
    rfl

/-- A new borrower without a score who was declined once. -/
def declinedApplication : Application :=
  { unscoredApplication with storedDecision := some .decline, arm := some .champion }

/-- Written with a blank in front. -/
def existingOverride : Dict Value :=
  [(" is_existing_customer", .text "yes")]

/-- Had it been an existing customer, the application would have been approved. -/
theorem trace_decides_existing :
    existingOverride.Sorted ∧ Application.Takes existingOverride ∧
      ∃ t, lendingEngine.simulation.trace lendingConfiguration declinedApplication
          existingOverride = .ok t ∧
        t.decided.routing = Tree.repeatRoute ∧ t.decided.outcome.decision = .approve ∧
        t.changed = true := by
  have hsorted : existingOverride.Sorted := List.pairwise_singleton _ _
  have htraces := trace_decides lendingEngine.simulation lendingConfiguration declinedApplication
    hsorted
  have htakes : Application.Takes existingOverride := by
    constructor
    · intro e he hrefuses
      obtain ⟨fault, hfault⟩ := overridden_refused declinedApplication ⟨e, he, hrefuses⟩
      have hok : ∃ b, overridden declinedApplication existingOverride = .ok b := ⟨_, rfl⟩
      obtain ⟨b, hb⟩ := hok
      cases hfault.symm.trans hb
    · decide +kernel
  have hroute : Tree.lendingTree.route (declinedApplication.revised existingOverride).context =
      .ok Tree.repeatRoute := by cbv
  obtain ⟨d, hd, hrouting, hdecision⟩ : ∃ d, lendingConfiguration.finish .ofApplication
      (declinedApplication.revised existingOverride).applicant
      (Allotment.ofApplication (some lendingSplit) (declinedApplication.revised existingOverride))
      Tree.repeatRoute = .ok d ∧ d.routing = Tree.repeatRoute ∧ d.outcome.decision = .approve :=
    ⟨_, rfl, rfl, by decide +kernel⟩
  have hdecide : lendingEngine.simulation.decide lendingConfiguration
      (declinedApplication.revised existingOverride) = .ok d :=
    bind_ok_iff.2 ⟨_, (mapError_ok_iff _).2 hroute, hd⟩
  obtain ⟨t, ht, hshows⟩ := htraces.decided htakes ⟨some "A-2", d⟩
    (Engine.decideApplication_ok.2 ⟨d, hdecide, rfl⟩)
  have hdecided : t.decided = d := hshows.decided
  refine ⟨hsorted, htakes, t, ht, hdecided ▸ hrouting, hdecided ▸ hdecision, ?_⟩
  have hmoved : lendingEngine.simulation.Moved lendingConfiguration
      (declinedApplication.revised existingOverride) ⟨"A-2", .decline, .approve⟩ :=
    ⟨rfl, rfl, by rw [decision?, hdecide]; exact congrArg some hdecision, by decide⟩
  obtain ⟨report, hreport, hchanged⟩ := hshows.changed .standard (by decide)
  refine hchanged.2 ⟨⟨"A-2", .decline, .approve⟩, ?_, rfl⟩
  cases (replay_ok (by decide)).symm.trans hreport
  rw [replayReport, ReplayCounters.report, (ReplayCounters.counts_run _).changed]
  exact List.mem_filterMap.2 ⟨_, List.mem_singleton_self _, change?_again_iff.2 hmoved⟩

end Simulation

end Lending
