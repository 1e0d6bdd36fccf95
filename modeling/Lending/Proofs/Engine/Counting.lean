import Lending.Engine.Simulation

/-! What the loops over batches have counted.

A replay and an impact analysis go over their rows once, with counters and with lists that entries
are added to. What a row adds does not depend on the rows in front of it: a step on the sum of two
counters is a step on the second (`append_step`), so what is counted of two batches in a row is
what is counted of each, added up (`run_append`). What the counters say of the rows behind the loop
is `Counts`; a step keeps it for one row more (`Counts.step`), so it holds after all of them
(`counts_run`). -/
namespace Lending

/-! ### Loops -/

section
variable {σ ρ : Type} {step : σ → ρ → σ} {start : σ}

/-- Where a step on a sum is a step on its second part, two lists are gone over in a row as each by
itself. -/
theorem foldl_append_of_step {append : σ → σ → σ} (hstart : ∀ k, append k start = k)
    (hstep : ∀ k k' row, step (append k k') row = append k (step k' row)) (rows rows' : List ρ) :
    (rows ++ rows').foldl step start =
      append (rows.foldl step start) (rows'.foldl step start) := by
  have h : rows'.foldl step (append (rows.foldl step start) start) =
      append (rows.foldl step start) (rows'.foldl step start) :=
    List.foldl_hom (append (rows.foldl step start)) fun k row => hstep _ k row
  rwa [hstart, ← List.foldl_append] at h

/-- What holds of the rows behind a loop, if a step keeps it for one row more. -/
theorem foldl_behind {P : List ρ → σ → Prop}
    (hstep : ∀ {seen k}, P seen k → ∀ row, P (seen ++ [row]) (step k row)) {seen : List ρ} {k : σ}
    (h : P seen k) (rows : List ρ) : P (seen ++ rows) (rows.foldl step k) := by
  induction rows generalizing seen k with
  | nil => rwa [List.append_nil]
  | cons row rest ih =>
    have hrest := ih (hstep h row)
    rwa [List.append_assoc, List.singleton_append] at hrest

end

/-! ### Tallies -/

namespace Tally

def add (t t' : Tally) : Tally :=
  ⟨t.approve + t'.approve, t.decline + t'.decline, t.refer + t'.refer⟩

/-- The number of decisions that were counted. -/
def total (t : Tally) : Nat :=
  t.approve + t.decline + t.refer

theorem add_zero (t : Tally) : t.add zero = t :=
  rfl

theorem zero_add (t : Tally) : zero.add t = t := by
  simp only [zero, add, Nat.zero_add]

theorem add_count (t t' : Tally) (d : Decision) : t.add (t'.count d) = (t.add t').count d := by
  cases d <;> rfl

theorem total_add (t t' : Tally) : (t.add t').total = t.total + t'.total := by
  simp only [total, add]
  omega

theorem get_add (t t' : Tally) (d : Decision) : (t.add t').get d = t.get d + t'.get d := by
  cases d <;> rfl

theorem total_one (d : Decision) : (zero.count d).total = 1 := by
  cases d <;> rfl

section
variable {α : Type} {f : α → Option Decision} {a : α}

/-- The tally of one item that there is no decision on. -/
theorem get_zero (h : f a = none) (d : Decision) :
    zero.get d = [a].countP fun a => f a = some d := by
  cases d <;> simp [zero, get, h]

/-- The tally of one item that there is a decision on. -/
theorem get_one {made : Decision} (h : f a = some made) (d : Decision) :
    (zero.count made).get d = [a].countP fun a => f a = some d := by
  cases made <;> cases d <;> simp [zero, count, get, h]

end

theorem ext_get {t t' : Tally} (h : ∀ d, t.get d = t'.get d) : t = t' := by
  obtain ⟨approve, decline, refer⟩ := t
  obtain ⟨approve', decline', refer'⟩ := t'
  cases h .approve
  cases h .decline
  cases h .refer
  rfl

end Tally

namespace Simulation

/-! ### Replays -/

namespace Replayed

def new? (r : Replayed) : Option Decision :=
  match r.result with
  | .ok d => some d
  | .error _ => none

/-- The stored decision of an application that was decided. -/
def stored? (r : Replayed) : Option Decision :=
  if r.new?.isSome then r.application.storedDecision else none

def change? (r : Replayed) : Option OutcomeChange :=
  match r.application.storedDecision, r.result with
  | some old, .ok new => if old = new then none else some ⟨r.application.id, old, new⟩
  | _, _ => none

def failure? (r : Replayed) : Option BatchFailure :=
  match r.result with
  | .ok _ => none
  | .error e => some ⟨r.application.id, e.message⟩

end Replayed

namespace ReplayCounters

/-- The counters of two loops, added up. -/
def append (k k' : ReplayCounters) : ReplayCounters where
  evaluated := k.evaluated + k'.evaluated
  compared := k.compared + k'.compared
  storedCounts := k.storedCounts.add k'.storedCounts
  newCounts := k.newCounts.add k'.newCounts
  changed := k.changed ++ k'.changed
  errors := k.errors ++ k'.errors

theorem append_start (k : ReplayCounters) : k.append start = k := by
  simp [append, start, Tally.add_zero]

theorem append_compare (k k' : ReplayCounters) (a : Application) (new : Decision) :
    (k.append k').compare a new = k.append (k'.compare a new) := by
  unfold compare
  cases a.storedDecision with
  | none => rfl
  | some old =>
    by_cases hsame : old = new
    · simp only [append, if_pos hsame, Tally.add_count, Nat.add_assoc]
    · simp only [append, if_neg hsame, Tally.add_count, Nat.add_assoc, Array.append_push]

/-- What a row adds does not depend on what was counted before. -/
theorem append_step (k k' : ReplayCounters) (row : Replayed) :
    (k.append k').step row = k.append (k'.step row) := by
  unfold step
  cases row.result with
  | error e => simp only [append, Array.append_push]
  | ok new =>
    rw [← append_compare]
    simp only [append, Tally.add_count, Nat.add_assoc]

theorem step_eq (k : ReplayCounters) (row : Replayed) : k.step row = k.append (run [row]) := by
  have h := append_step k start row
  rwa [append_start] at h

/-- Two batches are counted in a row as each by itself. -/
theorem run_append (rows rows' : List Replayed) :
    run (rows ++ rows') = (run rows).append (run rows') :=
  foldl_append_of_step append_start append_step rows rows'

/-- A row that fails adds its failure to the list. -/
theorem step_of_failed (k : ReplayCounters) {row : Replayed} {f : BatchFailure}
    (h : row.failure? = some f) : k.step row = { k with errors := k.errors.push f } := by
  obtain ⟨a, result⟩ := row
  cases result with
  | error e =>
    cases h
    rfl
  | ok new => cases h

theorem run_cons_of_failed {row : Replayed} {f : BatchFailure} (h : row.failure? = some f)
    (rows : List Replayed) :
    run (row :: rows) = { run rows with errors := #[f] ++ (run rows).errors } := by
  have hrun : run [row] = { start with errors := #[f] } := step_of_failed start h
  rw [← List.singleton_append, run_append, hrun]
  simp only [append, start, Nat.zero_add, Tally.zero_add, Array.empty_append]

/-- What the counters say of the rows behind the loop. -/
structure Counts (rows : List Replayed) (k : ReplayCounters) : Prop where
  settled : k.evaluated + k.errors.size = rows.length
  counted : k.newCounts.total = k.evaluated
  compared : k.storedCounts.total = k.compared
  /-- What changed was compared. -/
  changed_le : k.changed.size ≤ k.compared
  made : ∀ d, k.newCounts.get d = rows.countP fun row => row.new? = some d
  stored : ∀ d, k.storedCounts.get d = rows.countP fun row => row.stored? = some d
  changed : k.changed.toList = rows.filterMap Replayed.change?
  errors : k.errors.toList = rows.filterMap Replayed.failure?

theorem Counts.append {rows rows' : List Replayed} {k k' : ReplayCounters} (h : Counts rows k)
    (h' : Counts rows' k') : Counts (rows ++ rows') (k.append k') := by
  constructor
  · have := h.settled
    have := h'.settled
    simp only [ReplayCounters.append, Array.size_append, List.length_append]
    omega
  · rw [ReplayCounters.append, Tally.total_add, h.counted, h'.counted]
  · rw [ReplayCounters.append, Tally.total_add, h.compared, h'.compared]
  · rw [ReplayCounters.append, Array.size_append]
    exact Nat.add_le_add h.changed_le h'.changed_le
  · intro d
    rw [ReplayCounters.append, Tally.get_add, h.made, h'.made, List.countP_append]
  · intro d
    rw [ReplayCounters.append, Tally.get_add, h.stored, h'.stored, List.countP_append]
  · rw [ReplayCounters.append, Array.toList_append, h.changed, h'.changed, List.filterMap_append]
  · rw [ReplayCounters.append, Array.toList_append, h.errors, h'.errors, List.filterMap_append]

theorem counts_one (row : Replayed) : Counts [row] (run [row]) := by
  obtain ⟨⟨id, applicant, context, stored, arm⟩, result⟩ := row
  cases result with
  | error e =>
    refine ⟨rfl, rfl, rfl, Nat.le_refl 0, Tally.get_zero rfl, Tally.get_zero rfl, ?_, rfl⟩
    cases stored <;> rfl
  | ok new =>
    have hmade := Tally.total_one new
    cases stored with
    | none =>
      exact ⟨rfl, hmade, rfl, Nat.le_refl 0, Tally.get_one rfl, Tally.get_zero rfl, rfl, rfl⟩
    | some old =>
      refine ⟨rfl, hmade, Tally.total_one old, ?_, Tally.get_one rfl, Tally.get_one rfl, ?_, rfl⟩
      · show (if old = new then #[] else #[_]).size ≤ 1
        split
        · exact Nat.zero_le 1
        · exact Nat.le_refl 1
      · show (if old = new then #[] else #[_]).toList = [_].filterMap Replayed.change?
        rw [List.filterMap_cons, Replayed.change?]
        by_cases hsame : old = new
        · simp only [if_pos hsame, List.filterMap_nil]
        · simp only [if_neg hsame, List.filterMap_nil]

/-- A step counts one row more. -/
theorem Counts.step {rows : List Replayed} {k : ReplayCounters} (h : Counts rows k)
    (row : Replayed) : Counts (rows ++ [row]) (k.step row) :=
  step_eq k row ▸ h.append (counts_one row)

theorem counts_start : Counts [] start :=
  ⟨rfl, rfl, rfl, Nat.le_refl 0, fun d => by cases d <;> rfl, fun d => by cases d <;> rfl, rfl, rfl⟩

/-- What a loop has counted of all of its rows. -/
theorem counts_run (rows : List Replayed) : Counts rows (run rows) :=
  foldl_behind Counts.step counts_start rows

end ReplayCounters

end Simulation

/-! ### Impact analyses -/

/-- The kind of the changes to a decision. -/
def ChangeKind.toward : Decision → ChangeKind
  | .approve => newlyApproved
  | .decline => newlyDeclined
  | .refer => newlyReferred

/-- How many applications are counted as newly decided so. -/
def ImpactReport.newly (r : ImpactReport) : Decision → Nat
  | .approve => r.newlyApproved
  | .decline => r.newlyDeclined
  | .refer => r.newlyReferred

namespace Simulation

theorem classify_of_ne {old new : Decision} (h : old ≠ new) :
    ChangeKind.classify old new = .toward new := by
  cases new <;> exact if_neg h

namespace Compared

def change? (r : Compared) : Option ImpactChange :=
  match r.old, r.new with
  | .ok old, .ok new =>
    if old.outcome.decision = new.outcome.decision then none
    else
      some
        { applicationId := r.application.id
          old := old.outcome.decision
          new := new.outcome.decision
          kind := .toward new.outcome.decision
          oldTarget := old.outcome.target.id
          newTarget := new.outcome.target.id }
  | _, _ => none

def failure? (r : Compared) : Option BatchFailure :=
  match r.old, r.new with
  | .error e, _ => some ⟨r.application.id, s!"old configuration: {e.message}"⟩
  | .ok _, .error e => some ⟨r.application.id, s!"new configuration: {e.message}"⟩
  | .ok _, .ok _ => none

/-- What is listed as a change are two decisions that differ. -/
theorem change?_some {row : Compared} {ch : ImpactChange} (h : row.change? = some ch) :
    ∃ old new, row.old = .ok old ∧ row.new = .ok new ∧ ch.old = old.outcome.decision ∧
      ch.new = new.outcome.decision ∧ ch.old ≠ ch.new ∧ ch.kind = .toward ch.new := by
  unfold change? at h
  split at h
  · next old new hold hnew =>
    obtain ⟨hne, hch⟩ := Option.ite_none_left_eq_some.1 h
    cases hch
    exact ⟨old, new, hold, hnew, rfl, rfl, hne, rfl⟩
  · cases h

end Compared

namespace ImpactCounters

/-- The counters of two loops, added up. -/
def append (k k' : ImpactCounters) : ImpactCounters where
  evaluated := k.evaluated + k'.evaluated
  newlyApproved := k.newlyApproved + k'.newlyApproved
  newlyDeclined := k.newlyDeclined + k'.newlyDeclined
  newlyReferred := k.newlyReferred + k'.newlyReferred
  unchanged := k.unchanged + k'.unchanged
  changes := k.changes ++ k'.changes
  errors := k.errors ++ k'.errors

theorem append_start (k : ImpactCounters) : k.append start = k := by
  simp [append, start]

theorem append_count (k k' : ImpactCounters) (kind : ChangeKind) :
    (k.append k').count kind = k.append (k'.count kind) := by
  cases kind <;> simp only [append, count, Nat.add_assoc]

theorem append_classify (k k' : ImpactCounters) (a : Application) (old new : Decided) :
    (k.append k').classify a old new = k.append (k'.classify a old new) := by
  have hcount (kind : ChangeKind) :
      { k.append k' with evaluated := (k.append k').evaluated + 1 }.count kind =
        k.append ({ k' with evaluated := k'.evaluated + 1 }.count kind) :=
    append_count k { k' with evaluated := k'.evaluated + 1 } kind
  simp only [classify, hcount]
  split
  · rfl
  · simp only [append, Array.append_push]

/-- What a row adds does not depend on what was counted before. -/
theorem append_step (k k' : ImpactCounters) (row : Compared) :
    (k.append k').step row = k.append (k'.step row) := by
  unfold step
  cases row.old with
  | error e => simp only [fail, append, Array.append_push]
  | ok old =>
    cases row.new with
    | error e => simp only [fail, append, Array.append_push]
    | ok new => exact append_classify k k' row.application old new

theorem step_eq (k : ImpactCounters) (row : Compared) : k.step row = k.append (run [row]) := by
  have h := append_step k start row
  rwa [append_start] at h

/-- Two batches are counted in a row as each by itself. -/
theorem run_append (rows rows' : List Compared) :
    run (rows ++ rows') = (run rows).append (run rows') :=
  foldl_append_of_step append_start append_step rows rows'

/-- A row that fails adds its failure to the list. -/
theorem step_of_failed (k : ImpactCounters) {row : Compared} {f : BatchFailure}
    (h : row.failure? = some f) : k.step row = { k with errors := k.errors.push f } := by
  obtain ⟨a, old, new⟩ := row
  cases old with
  | error e =>
    cases h
    rfl
  | ok old =>
    cases new with
    | error e =>
      cases h
      rfl
    | ok new => cases h

theorem run_cons_of_failed {row : Compared} {f : BatchFailure} (h : row.failure? = some f)
    (rows : List Compared) :
    run (row :: rows) = { run rows with errors := #[f] ++ (run rows).errors } := by
  have hrun : run [row] = { start with errors := #[f] } := step_of_failed start h
  rw [← List.singleton_append, run_append, hrun]
  simp only [append, start, Nat.zero_add, Array.empty_append]

/-- What the counters say of the rows behind the loop. -/
structure Counts (rows : List Compared) (k : ImpactCounters) : Prop where
  settled : k.evaluated + k.errors.size = rows.length
  compared : k.changes.size + k.unchanged = k.evaluated
  changed : k.newlyApproved + k.newlyDeclined + k.newlyReferred = k.changes.size
  newly : ∀ d, (k.report rows.length).newly d = k.changes.toList.countP fun ch => ch.new = d
  changes : k.changes.toList = rows.filterMap Compared.change?
  errors : k.errors.toList = rows.filterMap Compared.failure?

theorem Counts.append {rows rows' : List Compared} {k k' : ImpactCounters} (h : Counts rows k)
    (h' : Counts rows' k') : Counts (rows ++ rows') (k.append k') := by
  have hchanges : (k.append k').changes.toList = k.changes.toList ++ k'.changes.toList :=
    Array.toList_append
  constructor
  · have := h.settled
    have := h'.settled
    simp only [ImpactCounters.append, Array.size_append, List.length_append]
    omega
  · have := h.compared
    have := h'.compared
    simp only [ImpactCounters.append, Array.size_append]
    omega
  · have := h.changed
    have := h'.changed
    simp only [ImpactCounters.append, Array.size_append]
    omega
  · intro d
    rw [hchanges, List.countP_append, ← h.newly d, ← h'.newly d]
    cases d <;> rfl
  · rw [hchanges, h.changes, h'.changes, List.filterMap_append]
  · rw [ImpactCounters.append, Array.toList_append, h.errors, h'.errors, List.filterMap_append]

theorem classify_of_eq (k : ImpactCounters) (a : Application) {old new : Decided}
    (h : old.outcome.decision = new.outcome.decision) :
    k.classify a old new =
      { k with evaluated := k.evaluated + 1, unchanged := k.unchanged + 1 } := by
  have hkind : ChangeKind.classify old.outcome.decision new.outcome.decision = .unchanged :=
    if_pos h
  simp only [classify, hkind, if_true, count]

theorem classify_of_ne (k : ImpactCounters) (a : Application) {old new : Decided}
    (h : old.outcome.decision ≠ new.outcome.decision) :
    k.classify a old new =
      { { k with evaluated := k.evaluated + 1 }.count (.toward new.outcome.decision) with
        changes := k.changes.push ⟨a.id, old.outcome.decision, new.outcome.decision,
          .toward new.outcome.decision, old.outcome.target.id, new.outcome.target.id⟩ } := by
  simp only [classify, Simulation.classify_of_ne h]
  cases new.outcome.decision <;> rfl

theorem counts_one (row : Compared) : Counts [row] (run [row]) := by
  obtain ⟨a, old, new⟩ := row
  cases old with
  | error e => exact ⟨rfl, rfl, rfl, fun d => by cases d <;> rfl, rfl, rfl⟩
  | ok old =>
    cases new with
    | error e => exact ⟨rfl, rfl, rfl, fun d => by cases d <;> rfl, rfl, rfl⟩
    | ok new =>
      show Counts _ (start.classify a old new)
      by_cases hsame : old.outcome.decision = new.outcome.decision
      · rw [classify_of_eq start a hsame]
        refine ⟨rfl, rfl, rfl, fun d => by cases d <;> rfl, ?_, rfl⟩
        rw [List.filterMap_cons, Compared.change?]
        simp only [if_pos hsame]
        rfl
      · rw [classify_of_ne start a hsame]
        have hchange : Compared.change? ⟨a, .ok old, .ok new⟩ = some _ := if_neg hsame
        have hlisted := (List.filterMap_cons_some (l := []) hchange).symm
        refine ⟨?settled, ?compared, ?changed, fun d => ?newly, hlisted, ?errors⟩
        case newly =>
          cases new.outcome.decision <;> cases d <;>
            simp [report, ImpactReport.newly, start, count, ChangeKind.toward]
        all_goals cases new.outcome.decision <;> rfl

theorem counts_start : Counts [] start :=
  ⟨rfl, rfl, rfl, fun d => by cases d <;> rfl, rfl, rfl⟩

/-- A step counts one row more. -/
theorem Counts.step {rows : List Compared} {k : ImpactCounters} (h : Counts rows k)
    (row : Compared) : Counts (rows ++ [row]) (k.step row) :=
  step_eq k row ▸ h.append (counts_one row)

/-- What a loop has counted of all of its rows. -/
theorem counts_run (rows : List Compared) : Counts rows (run rows) :=
  foldl_behind Counts.step counts_start rows

end ImpactCounters

end Simulation

end Lending
