import Lending.Policy.StrategyDocument
import Lending.Proofs.Policy.Members

/-! What becomes of the members of a strategy's document.

Some members are checked for their type, and of those nothing gets lost: the id and the mode, the
lists of rules, the version, and the gate with its score. The others are taken for absent where they
are of another type, without an error: the list of cutoffs, the mapping of reason codes and each
code in it that is no text, the name, and the outcome of a failed gate. -/
namespace Lending

/-! ### Members that hold lists and mappings -/

namespace Document
variable {d : Document} {name : String} {α : Type}

/-- What is found under a member: nothing where it is absent or null, and `none` where it is of
another type. -/
def entries? (f : Document → Option (List α)) (d : Document) (name : String) : Option (List α) :=
  match d.present? name with
  | none => some []
  | some e => f e

theorem getD_of_entries? {f : Document → Option (List α)} (hnull : f .null = none)
    {entries : List α} (h : d.entries? f name = some entries) :
    ((d.get? name).bind f).getD [] = entries := by
  rw [← bind_present? hnull]
  rw [entries?] at h
  cases hpresent : d.present? name with
  | none =>
    rw [hpresent] at h
    cases h
    rfl
  | some e =>
    rw [hpresent] at h
    exact congrArg (Option.getD · []) h

end Document

/-! ### What is kept -/

/-- The results are those of the items of a list, one for each and in order. -/
def KeepsList {α : Type} (d : Document) (name : String) (read : Document → Except ReadError α)
    (results : List α) : Prop :=
  ∃ items, d.entries? Document.items? name = some items ∧
    List.Forall₂ (fun item result => read item = .ok result) items results

/-- Under every text there is a code for a text, a number or a truth value. -/
def KeepsCodes (d : Document) (codes : Dict String) : Prop :=
  ∃ members, d.entries? Document.members? "reason_code_map" = some members ∧
    ∀ m ∈ members, ∀ id, m.1.text? = some id → m.2.untagged.scalarText?.isSome → id ∈ codes.keys

namespace Strategy

/-- The members that are checked for their type are kept. -/
structure KeepsChecked (d : Document) (s : Strategy) : Prop where
  id : ∃ e, d.present? "id" = some e ∧ e.scalarText? = some s.id
  mode : ∃ e word, d.present? "evaluation_mode" = some e ∧ e.scalarText? = some word ∧
    Mode.read word = .ok s.mode
  version : ∀ e ∈ d.present? "version", e.count? = some s.version
  knockOuts : KeepsList d "knock_out_rules" (fun item => (Rule.read item).outcome) s.knockOuts
  overlays : KeepsList d "overlay_rules" (fun item => (Rule.read item).outcome) s.overlays
  gate : ∀ e ∈ d.present? "score_gate", ∃ g score, s.gate = some g ∧
    e.present? "min_score" = some score ∧ score.number? = some g.minScore

/-- Every member that is there is kept. -/
structure LosesNothing (d : Document) (s : Strategy) : Prop extends KeepsChecked d s where
  cutoffs : KeepsList d "score_cutoffs" Cutoff.read s.cutoffs
  reasonCodes : KeepsCodes d s.reasonCodes
  name : ∀ e ∈ d.present? "name", ∃ word, e.scalarText? = some word ∧ s.name = some word
  failOutcome : ∀ gate ∈ d.present? "score_gate", ∀ e ∈ gate.present? "fail_outcome",
    ∃ g word, s.gate = some g ∧ e.scalarText? = some word ∧
      Decision.read "fail_outcome" word = .ok g.failOutcome

/-- The members that are not checked are of the types that are asked of them. -/
structure Unmistaken (d : Document) : Prop where
  cutoffs : (d.entries? Document.items? "score_cutoffs").isSome
  /-- A reason code under a text is a text, or another code under it is. -/
  reasonCodes : ∃ members, d.entries? Document.members? "reason_code_map" = some members ∧
    ∀ m ∈ members, ∀ id, m.1.text? = some id → m.2.untagged.scalarText?.isSome →
      ∃ m' ∈ members, m'.1.text? = some id ∧ m'.2.text?.isSome
  name : ∀ e ∈ d.present? "name", e.scalarText?.isSome
  failOutcome : ∀ gate ∈ d.present? "score_gate", ∀ e ∈ gate.present? "fail_outcome",
    e.scalarText?.isSome

end Strategy

/-! ### Member by member -/

theorem Rule.keepsList_of_readList {d : Document} {name : String} {rules : List Rule}
    (h : (readList d name).outcome = .ok rules) :
    KeepsList d name (fun item => (read item).outcome) rules := by
  rw [KeepsList, Document.entries?, Document.present?]
  rw [readList] at h
  split at h
  · next hget =>
    cases h
    exact ⟨[], by rw [hget], .nil⟩
  · next hget =>
    cases h
    exact ⟨[], by rw [hget], .nil⟩
  · next items hget =>
    rw [outcome_forEach] at h
    exact ⟨items, by rw [hget]; rfl, mapM_ok_iff.1 h⟩
  · cases h

theorem Cutoff.keepsList_iff {d : Document} {cutoffs : List Cutoff}
    (h : readList d = .ok cutoffs) : KeepsList d "score_cutoffs" read cutoffs ↔
      (d.entries? Document.items? "score_cutoffs").isSome := by
  constructor
  · rintro ⟨items, hitems, -⟩
    rw [hitems]
    rfl
  · intro hsome
    obtain ⟨items, hitems⟩ := Option.isSome_iff_exists.1 hsome
    have hread : (d.optionalItems "score_cutoffs").getD [] = items :=
      Document.getD_of_entries? rfl hitems
    rw [readList, hread] at h
    exact ⟨items, hitems, mapM_ok_iff.1 h⟩

theorem Gate.read_ok {d : Document} {g : Gate} (h : read d = .ok g) :
    d.requiredNumber "min_score" = .ok g.minScore ∧
      ∃ outcome, d.optionalWord (Decision.read "fail_outcome") "fail_outcome" = .ok outcome ∧
        g.failOutcome = outcome.getD .decline := by
  obtain ⟨score, hscore, h⟩ := bind_ok_iff.1 h
  obtain ⟨outcome, houtcome, h⟩ := bind_ok_iff.1 h
  cases h
  exact ⟨hscore, outcome, houtcome, rfl⟩

/-- A word that is there is read. -/
theorem Gate.failOutcome_of_word {d e : Document} {g : Gate} {word : String} (h : read d = .ok g)
    (he : d.present? "fail_outcome" = some e) (hword : e.scalarText? = some word) :
    Decision.read "fail_outcome" word = .ok g.failOutcome := by
  obtain ⟨-, outcome, houtcome, hg⟩ := read_ok h
  rw [Document.optionalWord, Document.optionalText_of_present? he, hword] at houtcome
  obtain ⟨decision, hread, rfl⟩ := map_ok_iff.1 houtcome
  rw [hg]
  exact hread

namespace Strategy
variable {d : Document} {s : Strategy}

theorem mem_keys_readCodes {members : List (Document × Document)} {id : String}
    (h : d.entries? Document.members? "reason_code_map" = some members) :
    id ∈ (readCodes d).keys ↔ ∃ m ∈ members, m.1.text? = some id ∧ m.2.text?.isSome := by
  have hmembers : ((d.get? "reason_code_map").bind Document.members?).getD [] = members :=
    Document.getD_of_entries? rfl h
  rw [readCodes, hmembers, Dict.mem_keys_ofList, List.map_filterMap, List.mem_filterMap]
  refine exists_congr fun m => and_congr_right fun _ => ?_
  cases m.1.text? with
  | none => simp
  | some key => cases m.2.text? <;> simp

theorem keepsCodes_iff : KeepsCodes d (readCodes d) ↔
    ∃ members, d.entries? Document.members? "reason_code_map" = some members ∧
      ∀ m ∈ members, ∀ id, m.1.text? = some id → m.2.untagged.scalarText?.isSome →
        ∃ m' ∈ members, m'.1.text? = some id ∧ m'.2.text?.isSome := by
  refine exists_congr fun members => and_congr_right fun hmembers => ?_
  simp only [mem_keys_readCodes hmembers]

theorem readGate_ok {gate : Option Gate} (h : readGate d = .ok gate) :
    ∀ e ∈ d.present? "score_gate", ∃ g, gate = some g ∧ Gate.read e = .ok g := by
  intro e he
  rw [readGate, Option.mem_def.1 he] at h
  obtain ⟨g, hread, rfl⟩ := map_ok_iff.1 h
  exact ⟨g, rfl, hread⟩

/-- The readings of a document, member by member. -/
structure Reads (d : Document) (s : Strategy) : Prop where
  id : d.requiredText "id" = .ok s.id
  mode : ∃ word, d.requiredText "evaluation_mode" = .ok word ∧ Mode.read word = .ok s.mode
  cutoffs : Cutoff.readList d = .ok s.cutoffs
  gate : readGate d = .ok s.gate
  version : ∃ version, d.optionalCount "version" = .ok version ∧ s.version = version.getD 1
  knockOuts : (Rule.readList d "knock_out_rules").outcome = .ok s.knockOuts
  overlays : (Rule.readList d "overlay_rules").outcome = .ok s.overlays
  name : s.name = d.optionalText "name"
  reasonCodes : s.reasonCodes = readCodes d

theorem reads_of_read (h : (read d).outcome = .ok s) : Reads d s := by
  simp only [read, Noted.outcome_bind, Noted.outcome_warn, Noted.outcome_liftM] at h
  obtain ⟨id, hid, h⟩ := bind_ok_iff.1 h
  obtain ⟨-, -, h⟩ := bind_ok_iff.1 h
  obtain ⟨word, hword, h⟩ := bind_ok_iff.1 h
  obtain ⟨mode, hmode, h⟩ := bind_ok_iff.1 h
  obtain ⟨cutoffs, hcutoffs, h⟩ := bind_ok_iff.1 h
  obtain ⟨gate, hgate, h⟩ := bind_ok_iff.1 h
  obtain ⟨version, hversion, h⟩ := bind_ok_iff.1 h
  obtain ⟨knockOuts, hknockOuts, h⟩ := bind_ok_iff.1 h
  obtain ⟨overlays, hoverlays, h⟩ := bind_ok_iff.1 h
  cases h
  exact ⟨hid, ⟨word, hword, hmode⟩, hcutoffs, hgate, ⟨version, hversion, rfl⟩, hknockOuts,
    hoverlays, rfl, rfl⟩

namespace Reads
variable (R : Reads d s)
include R

theorem keepsChecked : KeepsChecked d s where
  id := Document.requiredText_ok R.id
  mode := by
    obtain ⟨word, hword, hmode⟩ := R.mode
    obtain ⟨e, he, htext⟩ := Document.requiredText_ok hword
    exact ⟨e, word, he, htext, hmode⟩
  version e he := by
    obtain ⟨version, hversion, hs⟩ := R.version
    rcases Document.optional_ok_iff.1 hversion with ⟨hnone, -⟩ | ⟨e', n, hpresent, hcount, rfl⟩
    · rw [hnone] at he
      cases he
    · rw [hpresent] at he
      cases he
      rw [hs, Option.getD_some]
      exact hcount
  knockOuts := Rule.keepsList_of_readList R.knockOuts
  overlays := Rule.keepsList_of_readList R.overlays
  gate e he := by
    obtain ⟨g, hg, hread⟩ := readGate_ok R.gate e he
    obtain ⟨score, hscore, hnumber⟩ := Document.requiredNumber_ok (Gate.read_ok hread).1
    exact ⟨g, score, hg, hscore, hnumber⟩

theorem losesNothing (htypes : Unmistaken d) : LosesNothing d s := by
  refine { R.keepsChecked with cutoffs := ?_, reasonCodes := ?_, name := ?_, failOutcome := ?_ }
  · exact (Cutoff.keepsList_iff R.cutoffs).2 htypes.cutoffs
  · exact R.reasonCodes ▸ keepsCodes_iff.2 htypes.reasonCodes
  · intro e he
    obtain ⟨word, hword⟩ := Option.isSome_iff_exists.1 (htypes.name e he)
    exact ⟨word, hword, by rw [R.name, Document.optionalText_of_present? he, hword]⟩
  · intro gate hgate e he
    obtain ⟨g, hg, hread⟩ := readGate_ok R.gate gate hgate
    obtain ⟨word, hword⟩ := Option.isSome_iff_exists.1 (htypes.failOutcome gate hgate e he)
    exact ⟨g, word, hg, hword, Gate.failOutcome_of_word hread he hword⟩

theorem unmistaken (hkeeps : LosesNothing d s) : Unmistaken d where
  cutoffs := (Cutoff.keepsList_iff R.cutoffs).1 hkeeps.cutoffs
  reasonCodes := keepsCodes_iff.1 (R.reasonCodes ▸ hkeeps.reasonCodes)
  name e he := by
    obtain ⟨word, hword, -⟩ := hkeeps.name e he
    exact Option.isSome_of_eq_some hword
  failOutcome gate hgate e he := by
    obtain ⟨_, word, -, hword, -⟩ := hkeeps.failOutcome gate hgate e he
    exact Option.isSome_of_eq_some hword

end Reads

/-- **Nothing in a strategy's document gets lost** exactly if the members that are not checked are
of the types that are asked of them. What is checked is never lost: with rules in something else
than a list, or a version that is no count, a document is not read. -/
theorem loses_nothing_iff (h : (read d).outcome = .ok s) :
    KeepsChecked d s ∧ (LosesNothing d s ↔ Unmistaken d) := by
  have hreads := reads_of_read h
  exact ⟨hreads.keepsChecked, hreads.unmistaken, hreads.losesNothing⟩

/-- A strategy by score, with a code for one of its rules. -/
def scoredDocument : Document :=
  .record [("id", .text "standard_v1"), ("evaluation_mode", .text "dual_path"),
    ("score_cutoffs", .sequence [.record [("band", .text "A"), ("min_score", .integer 700),
      ("outcome", .text "approve")]]),
    ("reason_code_map", .record [("bankruptcy", .text "R17")])]

theorem loses_nothing_scored : ∃ s, (read scoredDocument).outcome = .ok s ∧
    KeepsChecked scoredDocument s ∧ LosesNothing scoredDocument s := by
  obtain ⟨s, h⟩ : ∃ s, (read scoredDocument).outcome = .ok s := ⟨_, rfl⟩
  have htypes : Unmistaken scoredDocument := by
    refine ⟨rfl, ⟨_, rfl, fun m hm id hid _ => ⟨m, hm, hid, ?_⟩⟩, nofun, nofun⟩
    rw [List.mem_singleton.1 hm]
    rfl
  have hiff := loses_nothing_iff h
  exact ⟨s, h, hiff.1, hiff.2.2 htypes⟩

/-- The same with the one band not in a list, and with a number for a code. -/
def mistakenDocument : Document :=
  .record [("id", .text "standard_v1"), ("evaluation_mode", .text "dual_path"),
    ("score_cutoffs", .record [("band", .text "A"), ("min_score", .integer 700),
      ("outcome", .text "approve")]),
    ("reason_code_map", .record [("bankruptcy", .integer 17)])]

/-- It is read, as a strategy with neither bands nor codes. -/
theorem score_overlooked : ∃ s, (read mistakenDocument).outcome = .ok s ∧ s.cutoffs = [] ∧
    s.reasonCodes = [] ∧ ¬ KeepsList mistakenDocument "score_cutoffs" Cutoff.read s.cutoffs ∧
    ¬ KeepsCodes mistakenDocument s.reasonCodes := by
  refine ⟨_, rfl, rfl, rfl, ?_, ?_⟩
  · rintro ⟨items, hitems, -⟩
    cases hitems
  · rintro ⟨members, hmembers, hcodes⟩
    cases hmembers
    have hmem := hcodes _ (List.mem_singleton_self _) "bankruptcy" rfl rfl
    exact List.not_mem_nil hmem

end Strategy

end Lending
