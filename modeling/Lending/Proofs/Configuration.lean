import Lending.Engine.Engine
import Lending.Proofs.Tree.Lineage

/-! Configurations that were assembled do not fail.

Four checks stand between a policy and a decision: those of the tree, of its references, of the
strategies and assessments, and of the split. `Closed` is what assembling leaves of them: all that
the tree names is there and can be executed. Every route of a built tree ends at a target that
the tree names, a split exchanges the champion for a strategy that is there as well, and so the
only failure left is the dangling branch of a tree without a default strategy. -/
namespace Lending

/-! ### Targets of routes -/

namespace Tree

/-- The tree can end a route at the target. -/
def Names (t : Tree) : Target → Prop
  | .strategy id => id ∈ t.strategyRefs
  | .assessment id => id ∈ t.assessmentRefs

theorem mem_strategyRefs {t : Tree} {id : String} : id ∈ t.strategyRefs ↔
    (∃ n ∈ t.nodes, n.strategyRef? = some id) ∨ t.defaultStrategy = some id := by
  rw [strategyRefs, Dict.mem_sortedKeys, List.mem_append, List.mem_filterMap, Option.mem_toList]

theorem mem_assessmentRefs {t : Tree} {id : String} : id ∈ t.assessmentRefs ↔
    ∃ n ∈ t.nodes, n.assessmentRef? = some id := by
  rw [assessmentRefs, Dict.mem_sortedKeys, List.mem_filterMap]

theorem names_of_arrived {t : Tree} {n : Node} (hn : n ∈ t.nodes) (ends : n.isTerminal = true)
    (path : List PathStep) :
    ∃ target, (Routing.arrived path n).target? = some target ∧ t.Names target := by
  rcases Node.kind_of_terminal ends with ⟨id, params, hkind⟩ | ⟨id, hkind⟩
  · have href : n.strategyRef? = some id := by rw [Node.strategyRef?, hkind]
    refine ⟨.strategy id, ?_, mem_strategyRefs.2 (.inl ⟨n, hn, href⟩)⟩
    simp [Routing.target?, Routing.arrived, href]
  · have hnone : n.strategyRef? = none := by rw [Node.strategyRef?, hkind]
    have href : n.assessmentRef? = some id := by rw [Node.assessmentRef?, hkind]
    refine ⟨.assessment id, ?_, mem_assessmentRefs.2 ⟨n, hn, href⟩⟩
    simp [Routing.target?, Routing.arrived, hnone, href]

/-- A route that succeeds ends at a target that its tree names. -/
theorem Sound.route_names {t : Tree} (S : t.Sound) {ctx : Context} {r : Routing}
    (hr : t.route ctx = .ok r) : ∃ target, r.target? = some target ∧ t.Names target := by
  obtain ⟨rest, last, hwalks, hlast, hends⟩ := S.walk_ends ctx
  have hmem := (S.chain_of_leads S.root_mem hwalks.linked).1 last (List.mem_of_getLast? hlast)
  generalize he : (t.walk ctx).ending = e at hends
  cases hends with
  | arrived ends =>
    cases (route_of_arrived he).symm.trans hr
    exact names_of_arrived hmem ends _
  | dangling s decides missing =>
    cases hd : t.defaultStrategy with
    | none => cases (route_of_dangling he hd).symm.trans hr
    | some strategy =>
      cases (route_of_default he hd).symm.trans hr
      exact ⟨.strategy strategy, rfl, mem_strategyRefs.2 (.inr hd)⟩

theorem checkReferences_ok {t : Tree} {hasStrategy hasAssessment : String → Bool}
    (h : t.checkReferences hasStrategy hasAssessment = .ok ()) :
    (∀ id ∈ t.strategyRefs, hasStrategy id = true) ∧
      ∀ id ∈ t.assessmentRefs, hasAssessment id = true := by
  unfold checkReferences at h
  split at h
  · cases h
  · cases h
  · next hstrategies hassessments =>
    constructor
    · intro id hid
      have hknown := List.find?_eq_none.1 hstrategies id hid
      rwa [Bool.not_eq_true, Bool.not_eq_false'] at hknown
    · intro id hid
      have hknown := List.find?_eq_none.1 hassessments id hid
      rwa [Bool.not_eq_true, Bool.not_eq_false'] at hknown

end Tree

/-! ### What assembling establishes -/

namespace Configuration

/-- The configuration has what a target names. -/
def Knows (c : Configuration) : Target → Prop
  | .strategy id => (c.strategy? id).isSome
  | .assessment id => (c.assessment? id).isSome

/-- All that the tree names is there and can be executed. -/
structure Closed (c : Configuration) : Prop where
  strategies : ∀ id s, c.strategy? id = some s → s.validate = .ok ()
  assessments : ∀ id a, c.assessment? id = some a → a.validate = .ok ()
  knows : ∀ target, c.tree.Names target → c.Knows target

/-- An entry that is put in only if it is new. -/
theorem eq_insert_of_new {α : Type} {known known' : Dict α} {id : String} {v : α} {e : Failure}
    (h : (do
      if known.contains id then throw e
      return known.insert id v : Except Failure (Dict α)) = .ok known') :
    known' = known.insert id v := by
  by_cases hknown : known.contains id = true
  · rw [if_pos hknown] at h
    cases h
  · rw [if_neg hknown] at h
    cases h
    rfl

theorem addStrategy_ok {known known' : Dict Strategy} {s : Strategy}
    (h : addStrategy known s = .ok known') :
    s.validate = .ok () ∧ known' = known.insert s.id s := by
  rw [addStrategy, then_ok_iff, mapError_ok_iff] at h
  exact ⟨h.1, eq_insert_of_new h.2⟩

theorem addAssessment_ok {known known' : Dict Assessment} {a : Assessment}
    (h : addAssessment known a = .ok known') :
    a.validate = .ok () ∧ known' = known.insert a.id a := by
  rw [addAssessment, then_ok_iff, mapError_ok_iff] at h
  exact ⟨h.1, eq_insert_of_new h.2⟩

/-- **An assembled configuration is closed.** -/
theorem assemble_closed {catalog : Catalog} {tree : Tree} {strategies : List Strategy}
    {assessments : List Assessment} {c : Configuration}
    (h : assemble catalog tree strategies assessments = .ok c) : c.tree = tree ∧ c.Closed := by
  rw [assemble, bind_ok_iff] at h
  obtain ⟨byId, hbyId, h⟩ := h
  rw [bind_ok_iff] at h
  obtain ⟨assessmentById, hassessmentById, h⟩ := h
  rw [then_ok_iff, mapError_ok_iff] at h
  obtain ⟨hrefs, h⟩ := h
  cases h
  obtain ⟨hstrategies, hassessments⟩ := Tree.checkReferences_ok hrefs
  refine ⟨rfl, ?_, ?_, ?_⟩
  · refine foldlM_keeps (fun d : Dict Strategy => ∀ id s, d.get? id = some s → s.validate = .ok ())
      ?_ (fun _ _ hnone => by cases hnone) hbyId
    intro d s _ d' hd hadd
    obtain ⟨hvalid, rfl⟩ := addStrategy_ok hadd
    exact Dict.forall_get?_insert hd s.id hvalid
  · refine foldlM_keeps (fun d : Dict Assessment => ∀ id a, d.get? id = some a →
      a.validate = .ok ()) ?_ (fun _ _ hnone => by cases hnone) hassessmentById
    intro d a _ d' hd hadd
    obtain ⟨hvalid, rfl⟩ := addAssessment_ok hadd
    exact Dict.forall_get?_insert hd a.id hvalid
  · intro target hnames
    cases target with
    | strategy id => exact hstrategies id hnames
    | assessment id => exact hassessments id hnames

/-- What the configuration knows it executes. -/
theorem Closed.execute_ok {c : Configuration} (C : c.Closed) {target : Target}
    (h : c.Knows target) (card : Scorecard) (p : Applicant) (params : Dict Value) :
    ∃ o, c.execute card p params target = .ok o := by
  cases target with
  | strategy id =>
    obtain ⟨s, hs⟩ := Option.isSome_iff_exists.1 h
    have hvalid := C.strategies id s hs
    exact ⟨_, by rw [execute, hs]; exact then_ok_iff.2 ⟨hvalid, rfl⟩⟩
  | assessment id =>
    obtain ⟨a, ha⟩ := Option.isSome_iff_exists.1 h
    have hvalid := C.assessments id a ha
    exact ⟨_, by rw [execute, ha]; exact then_ok_iff.2 ⟨hvalid, rfl⟩⟩

end Configuration

/-! ### Splits -/

/-- What an engine with a split is, and what it has checked of the split. -/
theorem Engine.withSplit_ok {e e' : Engine} {s : Split} (h : e.withSplit s = .ok e') :
    s.validate = .ok () ∧ (e.configuration.strategy? s.champion).isSome ∧
      (e.configuration.strategy? s.challenger).isSome ∧ e' = { e with split := some s } := by
  rw [withSplit, then_ok_iff, then_ok_iff] at h
  obtain ⟨hvalid, harms, h⟩ := h
  cases h
  unfold requireArms at harms
  split at harms
  · cases harms
  · next hfind =>
    rw [List.find?_eq_none] at hfind
    have hchampion := hfind s.champion (List.mem_cons_self ..)
    have hchallenger := hfind s.challenger (List.mem_cons_of_mem _ (List.mem_cons_self ..))
    rw [Bool.not_eq_true, Option.isNone_eq_false_iff] at hchampion hchallenger
    exact ⟨hvalid, hchampion, hchallenger, rfl⟩

namespace Configuration

/-- No split, or one that engines of the configuration accept. -/
def Admits (c : Configuration) (split : Option Split) : Prop :=
  ∀ s, split = some s → ∃ e e' : Engine, e.configuration = c ∧ e.withSplit s = .ok e'

/-- A split sends applications to strategies that the configuration knows. -/
theorem knows_allot {c : Configuration} {split : Option Split} (hs : c.Admits split)
    (a : Application) {target : Target} (h : c.Knows target) :
    c.Knows (allot (Allotment.ofApplication split a) target).1 := by
  cases target with
  | assessment id => exact h
  | strategy id =>
    cases hsplit : split with
    | none => exact h
    | some s =>
      obtain ⟨e, e', rfl, haccepts⟩ := hs s hsplit
      obtain ⟨_, hchampion, hchallenger, _⟩ := Engine.withSplit_ok haccepts
      show (e.configuration.strategy? (if s.champion = id then s.strategyFor _ else id)).isSome
      by_cases hid : s.champion = id
      · rw [if_pos hid]
        cases (Allotment.of Digest.sha256 a s).arm with
        | champion => exact hchampion
        | challenger => exact hchallenger
      · rw [if_neg hid]
        exact h

/-! ### A small configuration -/

def lendingStrategies : List Strategy :=
  [.ofMode "standard_v1" .dualPath, .ofMode "repeat_v2" .sequential]

def lendingAssessments : List Assessment :=
  [⟨"manual_review", none, []⟩]

def lendingConfiguration : Configuration where
  catalog := .standard
  tree := Tree.lendingTree
  treeId := none
  strategies := [("repeat_v2", .ofMode "repeat_v2" .sequential),
    ("standard_v1", .ofMode "standard_v1" .dualPath)]
  assessments := [("manual_review", ⟨"manual_review", none, []⟩)]

theorem assemble_lending :
    assemble .standard Tree.lendingTree lendingStrategies lendingAssessments =
      .ok lendingConfiguration :=
  rfl

/-- A fifth of the repeat borrowers are decided as new ones are. -/
def lendingSplit : Split :=
  ⟨"repeat_v2", "standard_v1", 20⟩

def lendingEngine : Engine :=
  ⟨lendingConfiguration, .ofApplication, some lendingSplit, .standard⟩

theorem admits_lendingSplit : lendingConfiguration.Admits (some lendingSplit) := by
  intro s hs
  cases hs
  exact ⟨.ofConfiguration lendingConfiguration, lendingEngine, rfl, rfl⟩

/-- A repeat borrower who was decided by the challenger before. -/
def lendingApplication : Application :=
  ⟨"A-1", .empty, Tree.repeatCustomer, none, some .challenger⟩

/-! ### Deciding -/

theorem Closed.finish_ok {c : Configuration} (C : c.Closed) {split : Option Split}
    (hs : c.Admits split) (card : Scorecard) (p : Applicant) (a : Application) {r : Routing}
    {target : Target} (htarget : r.target? = some target) (h : c.tree.Names target) :
    ∃ d, c.finish card p (Allotment.ofApplication split a) r = .ok d := by
  have hknows := knows_allot hs a (C.knows target h)
  obtain ⟨o, ho⟩ := C.execute_ok hknows card p r.params
  refine ⟨⟨r, o, (allot (Allotment.ofApplication split a) target).2⟩, ?_⟩
  rw [finish, htarget]
  exact bind_ok_iff.2 ⟨o, (mapError_ok_iff _).2 ho, rfl⟩

/-- **An assembled configuration decides.** Whatever the application, the scorecard and the
recorded arm, there is a decision, or a branch is dangling and the tree has no default strategy. -/
theorem assembled_decides {nodes : List Node} {defaultStrategy : Option String} {tree : Tree}
    (htree : Tree.build nodes defaultStrategy = .ok tree) {catalog : Catalog}
    {strategies : List Strategy} {assessments : List Assessment} {c : Configuration}
    (hc : assemble catalog tree strategies assessments = .ok c) {split : Option Split}
    (hs : c.Admits split) (card : Scorecard) (p : Applicant) (ctx : Context) (a : Application) :
    (∃ d, c.decide card p ctx (Allotment.ofApplication split a) = .ok d) ∨
      (tree.defaultStrategy = none ∧ ∃ key label,
        c.decide card p ctx (Allotment.ofApplication split a) =
          .error (.policy (.danglingBranch key label))) := by
  obtain ⟨rfl, C⟩ := assemble_closed hc
  have S := Tree.build_sound htree
  rcases S.route_ok_or_dangling ctx with ⟨r, hr⟩ | ⟨key, label, hr⟩
  · obtain ⟨target, htarget, hnames⟩ := S.route_names hr
    obtain ⟨d, hd⟩ := C.finish_ok hs card p a htarget hnames
    exact .inl ⟨d, bind_ok_iff.2 ⟨r, (mapError_ok_iff _).2 hr, hd⟩⟩
  · obtain ⟨hdefault, _⟩ := (S.route_dangling_iff ctx key label).1 hr
    refine .inr ⟨hdefault, key, label, ?_⟩
    rw [decide, hr]
    rfl

theorem assembled_decides_repeat :
    Tree.build Tree.lendingNodes none = .ok Tree.lendingTree ∧
      lendingConfiguration.Admits (some lendingSplit) ∧
      ((∃ d, lendingConfiguration.decide .ofApplication .empty Tree.repeatCustomer
          (Allotment.ofApplication (some lendingSplit) lendingApplication) = .ok d) ∨
        (Tree.lendingTree.defaultStrategy = none ∧ ∃ key label,
          lendingConfiguration.decide .ofApplication .empty Tree.repeatCustomer
              (Allotment.ofApplication (some lendingSplit) lendingApplication) =
            .error (.policy (.danglingBranch key label)))) :=
  ⟨Tree.build_lendingNodes, admits_lendingSplit,
    assembled_decides Tree.build_lendingNodes assemble_lending admits_lendingSplit .ofApplication
      .empty Tree.repeatCustomer lendingApplication⟩

end Configuration

end Lending
