import Lending.Engine.Engine
import Lending.Engine.Explanation
import Lending.Form.Outcomes

/-! The forms of applications, of decisions on them and of reports about them. -/
namespace Lending

def Arm.form (a : Arm) : Document :=
  .text a.name

def Arm.ofForm? (d : Document) : Option Arm :=
  Form.name? Arm.all Arm.name d

/-! ### Set-up -/

namespace Split

def form (s : Split) : Document :=
  .record
    [("champion", .text s.champion), ("challenger", .text s.challenger),
      ("challenger_percent", Form.ofNat s.percent)]

def ofForm? (d : Document) : Option Split := do
  let m ← Form.members? ["champion", "challenger", "challenger_percent"] d
  let champion ← m.required Form.text? "champion"
  let challenger ← m.required Form.text? "challenger"
  let percent ← m.required (Form.natural? UInt8.size) "challenger_percent"
  return ⟨champion, challenger, percent⟩

end Split

namespace BatchOptions

def size? (d : Document) : Option UInt64 :=
  (Form.natural? UInt64.size d).map UInt64.ofNat

def form (o : BatchOptions) : Document :=
  .record [("parallel", .flag o.parallel), ("max_batch_size", Form.ofNat o.maxSize.toNat)]

def ofForm? (d : Document) : Option BatchOptions := do
  let m ← Form.members? ["parallel", "max_batch_size"] d
  let parallel ← m.orElse Form.flag? "parallel" standard.parallel
  let maxSize ← m.orElse size? "max_batch_size" standard.maxSize
  return ⟨parallel, maxSize⟩

end BatchOptions

/-- The part of an engine's set-up that is kept in a file. -/
structure StoredSetup where
  files : List String
  treeId : Option String
  defaultStrategy : Option String
  options : BatchOptions

namespace StoredSetup

def form (s : StoredSetup) : Document :=
  .record
    [("config_files", Form.ofTexts s.files), ("tree_id", Form.orNull .text s.treeId),
      ("default_strategy", Form.orNull .text s.defaultStrategy), ("replay", s.options.form)]

def ofForm? (d : Document) : Option StoredSetup := do
  let m ← Form.members? ["config_files", "tree_id", "default_strategy", "replay"] d
  let files ← m.orElse (Form.list? Form.text?) "config_files" []
  let treeId ← m.optional Form.text? "tree_id"
  let defaultStrategy ← m.optional Form.text? "default_strategy"
  let options ← m.orElse BatchOptions.ofForm? "replay" .standard
  return ⟨files, treeId, defaultStrategy, options⟩

end StoredSetup

/-! ### Applications and decisions -/

namespace Application

def form (a : Application) : Document :=
  .record <|
    [("application_id", .text a.id), ("input", a.applicant.form), ("context", a.context.form)] ++
      Form.optional "original_outcome" Decision.form a.storedDecision ++
      Form.optional "assignment" Arm.form a.arm

def ofForm? (d : Document) : Option Application := do
  let m ← Form.members? ["application_id", "input", "context", "original_outcome", "assignment"] d
  let id ← m.required Form.text? "application_id"
  let applicant ← m.orElse Record.ofForm? "input" .empty
  let context ← m.orElse Record.ofForm? "context" .empty
  let stored ← m.optional Decision.ofForm? "original_outcome"
  let arm ← m.optional Arm.ofForm? "assignment"
  return ⟨id, applicant, context, stored, arm⟩

end Application

/-- What an engine was built from: the ids of its parts and its options. -/
def Engine.summary (e : Engine) : Document :=
  let c := e.configuration
  .record
    [("tree_id", Form.orNull .text c.treeId),
      ("default_strategy", Form.orNull .text c.tree.defaultStrategy),
      ("nodes", Form.ofNat c.tree.nodes.length), ("rules", Form.ofTexts (c.catalog.rules.map Rule.id)),
      ("strategies", Form.ofTexts c.strategies.keys),
      ("assessments", Form.ofTexts c.assessments.keys), ("split", Form.orNull Split.form e.split),
      ("replay", e.options.form)]

def DecisionRecord.form (r : DecisionRecord) : Document :=
  .record <|
    Form.optional "application_id" .text r.applicationId ++
      [("outcome", r.decision.form)] ++
      Form.optional "assignment" Arm.form r.decided.arm ++
      [("routing", r.decided.routing.form), ("result", r.decided.outcome.form)]

def Explanation.form (e : Explanation) : Document :=
  .record
    [("audience", .text e.audience.name), ("outcome", e.decision.form),
      ("headline", .text e.headline), ("lines", Form.ofTexts e.lines)]

/-! ### Simulations -/

def Trace.form (t : Trace) : Document :=
  .record <|
    [("application_id", .text t.applicationId),
      ("applied_overrides", Form.ofDict Document.ofValue t.overrides)] ++
      Form.optional "original_outcome" Decision.form t.storedDecision ++
      [("outcome", t.decided.outcome.decision.form)] ++
      Form.optional "assignment" Arm.form t.decided.arm ++
      [("changed", .flag t.changed), ("routing", t.decided.routing.form),
        ("result", t.decided.outcome.form)]

/-- Decisions that were not made are left out. -/
def Tally.form (t : Tally) : Document :=
  .record <|
    (Decision.all.filter (t.get · != 0)).map fun d => (d.name, Form.ofNat (t.get d))

def OutcomeChange.form (c : OutcomeChange) : Document :=
  .record
    [("application_id", .text c.applicationId), ("original", c.old.form), ("new", c.new.form)]

def BatchFailure.form (f : BatchFailure) : Document :=
  .record [("application_id", .text f.applicationId), ("error", .text f.message)]

def ReplayReport.form (r : ReplayReport) : Document :=
  .record
    [("total", Form.ofNat r.total), ("evaluated", Form.ofNat r.evaluated),
      ("original_counts", r.storedCounts.form), ("new_counts", r.newCounts.form),
      ("changed", Form.ofList OutcomeChange.form r.changed),
      ("errors", Form.ofList BatchFailure.form r.errors), ("agreement_rate", .real r.agreementRate)]

def ImpactChange.form (c : ImpactChange) : Document :=
  .record
    [("application_id", .text c.applicationId), ("old", c.old.form), ("new", c.new.form),
      ("kind", .text c.kind.name), ("old_target", .text c.oldTarget),
      ("new_target", .text c.newTarget)]

def ImpactReport.form (r : ImpactReport) : Document :=
  .record
    [("total", Form.ofNat r.total), ("evaluated", Form.ofNat r.evaluated),
      ("newly_approved", Form.ofNat r.newlyApproved), ("newly_declined", Form.ofNat r.newlyDeclined),
      ("newly_referred", Form.ofNat r.newlyReferred), ("unchanged", Form.ofNat r.unchanged),
      ("changes", Form.ofList ImpactChange.form r.changes),
      ("errors", Form.ofList BatchFailure.form r.errors)]

end Lending
