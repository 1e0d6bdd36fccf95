import Lending.Proofs.Tree.Reading
import Lending.Proofs.Tree.Links

/-! A tree as an arena.

What building checks is what routing relies on. The links of a built tree, by key, are those that
two passes over the list make by position (`Represents`): the passes fail where building does,
for the same reason (`links_checks`), and what a pass has made of the nodes so far is kept from node
to node (`Entered`, `childPositions`). Each node fits its kind (`Fits`), no node is above itself, and
one root stands out. -/
namespace Lending.Tree
open Relation (TransGen)

/-! ### Keys by position -/

/-- The keys of the nodes are entered, each at the position of its node, and no others. -/
def Entered (nodes : List Node) (positions : Dict Nat) : Prop :=
  ∀ key i, positions.get? key = some i ↔ ∃ n, nodes[i]? = some n ∧ n.key = key

section Keys
variable {nodes before : List Node} {positions : Dict Nat}

theorem getElem?_concat_iff {n m : Node} {i : Nat} :
    (before ++ [n])[i]? = some m ↔ before[i]? = some m ∨ i = before.length ∧ m = n := by
  rw [List.getElem?_append]
  split
  · next hlt => exact ⟨.inl, fun h => h.resolve_right fun h => absurd h.1 (Nat.ne_of_lt hlt)⟩
  · next hge =>
    rw [List.getElem?_eq_none (Nat.not_lt.1 hge), List.getElem?_singleton, Option.ite_none_right_eq_some]
    constructor
    · rintro ⟨hi, hn⟩
      exact .inr ⟨by omega, (Option.some.inj hn).symm⟩
    · rintro (h | ⟨rfl, rfl⟩)
      · cases h
      · exact ⟨Nat.sub_self _, rfl⟩

theorem Entered.contains_iff (h : Entered nodes positions) {key : String} :
    positions.contains key = true ↔ key ∈ nodes.map Node.key := by
  rw [Dict.contains, Option.isSome_iff_exists, List.mem_map]
  simp only [h key, List.mem_iff_getElem?]
  constructor
  · rintro ⟨i, n, hn, hkey⟩
    exact ⟨n, ⟨i, hn⟩, hkey⟩
  · rintro ⟨n, ⟨i, hn⟩, hkey⟩
    exact ⟨i, n, hn, hkey⟩

theorem Entered.enterKey_known (h : Entered before positions) {n : Node}
    (hkey : n.key ∈ before.map Node.key) :
    enterKey positions (n, before.length) = .error (.duplicateNode n.key) := by
  rw [enterKey, if_pos (h.contains_iff.2 hkey)]

/-- A new key is entered at the next position, and the others stay where they are. -/
theorem Entered.enterKey_new (h : Entered before positions) {n : Node}
    (hkey : n.key ∉ before.map Node.key) : ∃ positions',
    enterKey positions (n, before.length) = .ok positions' ∧ Entered (before ++ [n]) positions' := by
  have hnew : ¬ positions.contains n.key = true := mt h.contains_iff.1 hkey
  refine ⟨positions.insert n.key before.length, by rw [enterKey, if_neg hnew], fun key i => ?_⟩
  simp only [getElem?_concat_iff]
  by_cases hsame : key = n.key
  · subst hsame
    rw [Dict.get?_insert_self, Option.some.injEq]
    constructor
    · rintro rfl
      exact ⟨n, .inr ⟨rfl, rfl⟩, rfl⟩
    · rintro ⟨m, hm | ⟨hi, _⟩, hmkey⟩
      · exact absurd (hmkey ▸ List.mem_map_of_mem (List.mem_of_getElem? hm)) hkey
      · exact hi.symm
  · rw [Dict.get?_insert_of_ne _ hsame, h key i]
    constructor
    · rintro ⟨m, hm, hmkey⟩
      exact ⟨m, .inl hm, hmkey⟩
    · rintro ⟨m, hm | ⟨_, rfl⟩, hmkey⟩
      · exact ⟨m, hm, hmkey⟩
      · exact absurd hmkey.symm hsame

/-- Entering goes on to the first key that is there already. -/
theorem enterKeys_from (rest : List Node) (seen : List String) (h : Entered before positions)
    (hseen : ∀ key, key ∈ seen ↔ key ∈ before.map Node.key) :
    match Text.firstRepeat? seen (rest.map Node.key) with
    | some key =>
      (rest.zipIdx before.length).foldlM enterKey positions = .error (.duplicateNode key)
    | none => ∃ positions', (rest.zipIdx before.length).foldlM enterKey positions = .ok positions' ∧
        Entered (before ++ rest) positions' := by
  induction rest generalizing before positions seen with
  | nil => exact ⟨positions, rfl, by rwa [List.append_nil]⟩
  | cons n rest ih =>
    rw [List.map_cons, List.zipIdx_cons, List.foldlM_cons, Text.firstRepeat?]
    by_cases hkey : n.key ∈ seen
    · rw [if_pos hkey, h.enterKey_known ((hseen n.key).1 hkey)]
      rfl
    · obtain ⟨positions', hok, hentered⟩ := h.enterKey_new (mt (hseen n.key).2 hkey)
      have hrest := ih (n.key :: seen) hentered fun key => by simp [hseen key, or_comm]
      rw [List.length_append, List.length_singleton, List.append_assoc, List.singleton_append] at hrest
      rw [if_neg hkey, hok]
      exact hrest

theorem entered_nil : Entered [] [] :=
  fun _ _ => by simp

theorem enterKeys_of_ok (h : requireKeys nodes = .ok ()) :
    ∃ positions, enterKeys nodes = .ok positions ∧ Entered nodes positions := by
  have hrun := enterKeys_from nodes [] entered_nil (by simp)
  unfold requireKeys at h
  cases hrepeat : Text.firstRepeat? [] (nodes.map Node.key) with
  | some key => simp [hrepeat] at h
  | none =>
    rw [hrepeat] at hrun
    exact hrun

theorem enterKeys_of_error {e : PolicyError} (h : requireKeys nodes = .error e) :
    enterKeys nodes = .error e := by
  have hrun := enterKeys_from nodes [] entered_nil (by simp)
  unfold requireKeys at h
  cases hrepeat : Text.firstRepeat? [] (nodes.map Node.key) with
  | some key =>
    rw [hrepeat] at h hrun
    cases h
    exact hrun
  | none => simp [hrepeat] at h

end Keys

/-! ### Children by position -/

/-- The positions of the nodes that name the key as their parent's. -/
def childPositions (nodes : List Node) (key : String) : List Nat :=
  (nodes.zipIdx.filter fun m => m.1.parent == some key).map Prod.snd

section Children
variable {nodes before : List Node} {positions : Dict Nat} {key : String}

theorem mem_childPositions {j : Nat} :
    j ∈ childPositions nodes key ↔ ∃ m, nodes[j]? = some m ∧ m.parent = some key := by
  simp [childPositions, List.mem_zipIdx_iff_getElem?]

theorem pairwise_childPositions : (childPositions nodes key).Pairwise (· < ·) := by
  have hall : (nodes.zipIdx.map Prod.snd).Pairwise (· < ·) := by
    rw [List.zipIdx_map_snd]
    exact List.pairwise_lt_range'
  exact hall.sublist (List.filter_sublist.map Prod.snd)

/-- What is at the positions of the children are the children. -/
theorem filterMap_childPositions :
    (childPositions nodes key).filterMap (nodes[·]?) = childrenOf nodes key := by
  let named := nodes.zipIdx.filter fun m => m.1.parent == some key
  have hat : ∀ m ∈ named, ((nodes[·]?) ∘ Prod.snd) m = (some ∘ Prod.fst) m :=
    fun m hm => List.mem_zipIdx_iff_getElem?.1 (List.mem_filter.1 hm).1
  calc (named.map Prod.snd).filterMap (nodes[·]?)
      = named.filterMap (some ∘ Prod.fst) := by rw [List.filterMap_map, List.filterMap_congr hat]
    _ = named.map Prod.fst := by rw [List.filterMap_eq_map]
    _ = (nodes.zipIdx.map Prod.fst).filter (·.parent == some key) := by
      rw [List.filter_map]
      rfl
    _ = childrenOf nodes key := by rw [List.zipIdx_map_fst, childrenOf]

theorem childPositions_concat (n : Node) : childPositions (before ++ [n]) key =
    if n.parent = some key then childPositions before key ++ [before.length]
    else childPositions before key := by
  rw [childPositions, List.zipIdx_append, List.filter_append, List.map_append]
  by_cases hparent : n.parent = some key
  · simp [hparent, childPositions]
  · simp [hparent, childPositions]

/-- Why a node cannot be put below its parent. -/
def orphanFault? (nodes : List Node) (n : Node) : Option PolicyError :=
  match n.parent with
  | none => none
  | some parent =>
    if (nodeOf? nodes parent).isSome then none else some (.unknownParent n.key parent)

theorem Entered.get?_iff_nodeOf? (h : Entered nodes positions) :
    (positions.get? key).isSome = (nodeOf? nodes key).isSome := by
  rw [Bool.eq_iff_iff]
  refine h.contains_iff.trans ?_
  rw [nodeOf?, List.find?_isSome, List.mem_map]
  simp

/-- A node is put last among the children of its parent, and the children of others stay. -/
theorem Entered.linkNode (h : Entered nodes positions) (n : Node) :
    linkNode positions (nodes.map fun m => childPositions before m.key) (n, before.length) =
      match orphanFault? nodes n with
      | some e => .error e
      | none => .ok (nodes.map fun m => childPositions (before ++ [n]) m.key) := by
  unfold Tree.linkNode orphanFault?
  cases hparent : n.parent with
  | none => simp [childPositions_concat, hparent]
  | some parent =>
    dsimp only
    rw [← h.get?_iff_nodeOf?]
    cases hp : positions.get? parent with
    | none => rfl
    | some p =>
      rw [Option.isSome_some, if_pos rfl]
      refine congrArg Except.ok (List.ext_getElem? fun i => ?_)
      rw [List.getElem?_modify, List.getElem?_map, List.getElem?_map]
      cases hm : nodes[i]? with
      | none => rfl
      | some m =>
        have hwhere : p = i ↔ n.parent = some m.key := by
          rw [hparent, Option.some.injEq]
          constructor
          · rintro rfl
            obtain ⟨m', hm', hkey⟩ := (h parent p).1 hp
            cases Option.some.inj (hm.symm.trans hm')
            exact hkey.symm
          · rintro rfl
            exact Option.some.inj (hp.symm.trans ((h _ i).2 ⟨m, hm, rfl⟩))
        simp only [childPositions_concat, ← hwhere, Option.map_eq_map, Option.map_some]

/-- Linking goes on to the first node whose parent is not there. -/
theorem linkNodes_from (h : Entered nodes positions) (before rest : List Node) :
    (rest.zipIdx before.length).foldlM (Tree.linkNode positions)
        (nodes.map fun m => childPositions before m.key) =
      match rest.findSome? (orphanFault? nodes) with
      | some e => .error e
      | none => .ok (nodes.map fun m => childPositions (before ++ rest) m.key) := by
  induction rest generalizing before with
  | nil => simp [pure, Except.pure]
  | cons n rest ih =>
    rw [List.zipIdx_cons, List.foldlM_cons, h.linkNode n, List.findSome?_cons]
    cases orphanFault? nodes n with
    | some e => rfl
    | none =>
      have hrest := ih (before ++ [n])
      rw [List.length_append, List.length_singleton, List.append_assoc, List.singleton_append] at hrest
      exact hrest

theorem linkNodes_eq (h : Entered nodes positions) : linkNodes positions nodes =
    (requireParents nodes).map fun _ => nodes.map fun n => childPositions nodes n.key := by
  have hstart : (nodes.map fun n => childPositions [] n.key) = List.replicate nodes.length [] :=
    List.map_const' ..
  have hrun := linkNodes_from h [] nodes
  rw [hstart] at hrun
  refine hrun.trans ?_
  rw [requireParents, show orphan? nodes = nodes.findSome? (orphanFault? nodes) from rfl]
  cases nodes.findSome? (orphanFault? nodes) <;> rfl

end Children

/-! ### Both passes -/

/-- **The passes check what building checks of keys and parents**, and report the same fault. -/
theorem links_checks (nodes : List Node) : (links nodes).map (fun _ => ()) =
    (do requireKeys nodes; requireParents nodes) := by
  unfold links
  cases hkeys : requireKeys nodes with
  | error e => rw [enterKeys_of_error hkeys]; rfl
  | ok =>
    obtain ⟨positions, hpositions, hentered⟩ := enterKeys_of_ok hkeys
    rw [hpositions]
    show (linkNodes positions nodes >>= _).map _ = requireParents nodes
    rw [linkNodes_eq hentered]
    cases requireParents nodes <;> rfl

/-- The links by position are the links of the tree by key. -/
structure Represents (l : Links) (t : Tree) : Prop where
  /-- Every key is at the position of its own node, and looks it up. -/
  lookup : ∀ (i : Nat) (n : Node), t.nodes[i]? = some n →
    l.positions.get? n.key = some i ∧ t.node? n.key = some n
  size : l.children.length = t.nodes.length
  child_iff : ∀ (i : Nat) (n : Node) (js : List Nat), t.nodes[i]? = some n →
    l.children[i]? = some js →
    ∀ j, j ∈ js ↔ ∃ m : Node, t.nodes[j]? = some m ∧ m.parent = some n.key
  increasing : ∀ js ∈ l.children, js.Pairwise (· < ·)
  children : ∀ (i : Nat) (n : Node) (js : List Nat), t.nodes[i]? = some n →
    l.children[i]? = some js → t.children n.key = js.filterMap (t.nodes[·]?)
  /-- No node is a child twice. -/
  once : ∀ (i i' : Nat) (js js' : List Nat) (j : Nat), l.children[i]? = some js →
    l.children[i']? = some js' → j ∈ js → j ∈ js' → i = i'

/-- The children of the node at a position are those that name its key. -/
theorem exists_of_getElem?_childPositions {nodes : List Node} {i : Nat} {js : List Nat}
    (h : (nodes.map fun n => childPositions nodes n.key)[i]? = some js) :
    ∃ n, nodes[i]? = some n ∧ js = childPositions nodes n.key := by
  rw [List.getElem?_map, Option.map_eq_some_iff] at h
  obtain ⟨n, hn, hjs⟩ := h
  exact ⟨n, hn, hjs.symm⟩

theorem Entered.represents {t : Tree} {positions : Dict Nat} (h : Entered t.nodes positions)
    (hkeys : (t.nodes.map Node.key).Nodup) :
    Represents ⟨positions, t.nodes.map fun n => childPositions t.nodes n.key⟩ t := by
  constructor
  case lookup =>
    intro i n hn
    exact ⟨(h n.key i).2 ⟨n, hn, rfl⟩, nodeOf?_of_mem hkeys (List.mem_of_getElem? hn)⟩
  case size => exact List.length_map ..
  case child_iff =>
    intro i n js hn hjs j
    obtain ⟨n', hn', rfl⟩ := exists_of_getElem?_childPositions hjs
    cases Option.some.inj (hn.symm.trans hn')
    exact mem_childPositions
  case increasing =>
    intro js hjs
    obtain ⟨n, _, rfl⟩ := List.mem_map.1 hjs
    exact pairwise_childPositions
  case children =>
    intro i n js hn hjs
    obtain ⟨n', hn', rfl⟩ := exists_of_getElem?_childPositions hjs
    cases Option.some.inj (hn.symm.trans hn')
    exact filterMap_childPositions.symm
  case once =>
    intro i i' js js' j hjs hjs' hj hj'
    obtain ⟨n, hn, rfl⟩ := exists_of_getElem?_childPositions hjs
    obtain ⟨n', hn', rfl⟩ := exists_of_getElem?_childPositions hjs'
    obtain ⟨m, hm, hparent⟩ := mem_childPositions.1 hj
    obtain ⟨m', hm', hparent'⟩ := mem_childPositions.1 hj'
    cases Option.some.inj (hm.symm.trans hm')
    have hkey : n.key = n'.key := Option.some.inj (hparent.symm.trans hparent')
    have hi := (h n.key i).2 ⟨n, hn, rfl⟩
    have hi' := (h n.key i').2 ⟨n', hn', hkey.symm⟩
    exact Option.some.inj (hi.symm.trans hi')

theorem Sound.exists_links {t : Tree} (S : t.Sound) :
    ∃ l, links t.nodes = .ok l ∧ Represents l t := by
  obtain ⟨positions, hpositions, hentered⟩ := enterKeys_of_ok (requireKeys_of_nodup S.keys)
  have hchildren := linkNodes_eq hentered
  rw [requireParents_of_known S.parents] at hchildren
  refine ⟨_, ?_, hentered.represents S.keys⟩
  rw [links, hpositions]
  show (linkNodes positions t.nodes >>= _) = _
  rw [hchildren]
  rfl

/-! ### Each node on its own -/

/-- What the kind of a node asks of it. -/
structure Fits (t : Tree) (n : Node) : Prop where
  terminal : n.isTerminal = true → t.children n.key = [] ∧ ∃ target,
    (n.strategyRef? = some target ∨ n.assessmentRef? = some target) ∧
      Text.isBlankText target = false
  note : ∀ text, n.kind = .note text → ∃ c, t.children n.key = [c]
  twoWay : ∀ spec, n.kind = .condition spec → spec.type = .binary ∨ spec.type = .compound →
    n.branches.length = 2
  branches : n.isBranching = true → n.branches ≠ []
  /-- Every attribute that is named is one of a context. -/
  attributes : ∀ name ∈ n.attributes, (Attribute.ofName? name : Option ContextField).isSome = true
  /-- A condition that is not compound names an attribute. -/
  own : ∀ spec, n.kind = .condition spec → spec.type ≠ .compound → spec.field.isSome = true
  /-- Every declared branch leads to a child, unless there is a default strategy. -/
  leads : ∀ b ∈ n.branches, (∃ c ∈ t.children n.key, t.childFor n.key b.label = some c) ∨
    ∃ strategy, t.defaultStrategy = some strategy ∧ Text.isBlankText strategy = false

theorem requireField_ok_iff {key field : String} : requireField key field = .ok () ↔
    (Attribute.ofName? field : Option ContextField).isSome = true := by
  unfold requireField
  split
  · next h => exact iff_of_true rfl h
  · next h => exact iff_of_false (fun h => by cases h) h

theorem requireOwnField_ok {key : String} {spec : ConditionSpec}
    (h : requireOwnField key spec = .ok ()) :
    ∀ name ∈ spec.field.toList, (Attribute.ofName? name : Option ContextField).isSome = true := by
  unfold requireOwnField at h
  split at h
  · cases h
  · next field hfield =>
    intro name hname
    rw [hfield, Option.toList_some, List.mem_singleton] at hname
    exact hname ▸ requireField_ok_iff.1 h

/-- Every attribute of a condition is checked, whatever its type. -/
theorem attributes_of_checkCondition {key : String} {spec : ConditionSpec}
    (h : checkCondition key spec = .ok ()) :
    ∀ name ∈ spec.attributes, (Attribute.ofName? name : Option ContextField).isSome = true := by
  unfold checkCondition at h
  unfold ConditionSpec.attributes
  cases htype : spec.type with
  | compound =>
    simp only [htype] at h ⊢
    rw [then_ok_iff, then_ok_iff, forM_ok_iff] at h
    intro name hname
    obtain ⟨c, hc, rfl⟩ := List.mem_map.1 hname
    exact requireField_ok_iff.1 (h.2.1 c hc)
  | binary | categorical | numericRange | scorecardGate =>
    simp only [htype] at h ⊢
    exact requireOwnField_ok (then_ok_iff.1 h).1

section Nodes
variable {t : Tree} {n : Node}

theorem leads_of_checkBranches {key : String} {branches : List Branch}
    (hdefault : ∀ strategy, t.defaultStrategy = some strategy → Text.isBlankText strategy = false)
    (h : t.checkBranches key branches = .ok ()) :
    ∀ b ∈ branches, (∃ c ∈ t.children key, t.childFor key b.label = some c) ∨
      ∃ strategy, t.defaultStrategy = some strategy ∧ Text.isBlankText strategy = false := by
  intro b hb
  unfold checkBranches at h
  split at h
  · next hsome =>
    obtain ⟨strategy, hstrategy⟩ := Option.isSome_iff_exists.1 hsome
    exact .inr ⟨strategy, hstrategy, hdefault strategy hstrategy⟩
  · split at h
    · cases h
    · next hnone =>
      have hchild := List.find?_eq_none.1 hnone b hb
      rw [Option.isNone_iff_eq_none] at hchild
      obtain ⟨c, hc⟩ := Option.ne_none_iff_exists'.1 hchild
      exact .inl ⟨c, mem_children_of_childFor hc, hc⟩

theorem checkTerminal_ok {key target : String} (h : t.checkTerminal key target = .ok ()) :
    t.children key = [] ∧ Text.isBlankText target = false := by
  rw [checkTerminal, then_ok_iff, require_ok_iff, require_ok_iff] at h
  exact ⟨List.isEmpty_iff.1 h.2, by simpa using h.1⟩

theorem fits_of_terminal {target : String}
    (htarget : n.strategyRef? = some target ∨ n.assessmentRef? = some target)
    (hnone : t.children n.key = []) (hid : Text.isBlankText target = false) : t.Fits n := by
  unfold Node.strategyRef? Node.assessmentRef? at htarget
  cases hkind : n.kind with
  | condition spec => simp [hkind] at htarget
  | gate field branches nullBranch => simp [hkind] at htarget
  | note text => simp [hkind] at htarget
  | strategy id params | assessment id =>
    exact
      { terminal := fun _ => ⟨hnone, target, htarget, hid⟩
        note := by simp [hkind]
        twoWay := by simp [hkind]
        branches := by simp [Node.isBranching, hkind]
        attributes := by simp [Node.attributes, hkind]
        own := by simp [hkind]
        leads := by simp [Node.branches, hkind] }

theorem fits_of_condition {spec : ConditionSpec}
    (hdefault : ∀ strategy, t.defaultStrategy = some strategy → Text.isBlankText strategy = false)
    (hkind : n.kind = .condition spec) (hcondition : checkCondition n.key spec = .ok ())
    (hbranches : t.checkBranches n.key spec.branches = .ok ()) : t.Fits n := by
  have hshaped := shaped_of_checkCondition hcondition
  have hdeclared : n.branches = spec.branches := by rw [Node.branches, hkind]
  refine
    { terminal := by simp [Node.isTerminal, hkind]
      note := by simp [hkind]
      twoWay := ?_
      branches := fun _ => hdeclared ▸ hshaped.branches
      attributes := ?_
      own := ?_
      leads := hdeclared ▸ leads_of_checkBranches hdefault hbranches }
  · intro spec' hspec htwo
    cases hspec.symm.trans hkind
    obtain ⟨yes, no, hpair⟩ := hshaped.twoWay htwo
    rw [hdeclared, hpair]
    rfl
  · rw [Node.attributes, hkind]
    exact attributes_of_checkCondition hcondition
  · intro spec' hspec hother
    cases hspec.symm.trans hkind
    obtain ⟨name, hname⟩ := hshaped.field hother
    rw [hname]
    rfl

theorem fits_of_gate {field : String} {branches : List Branch} {nullBranch : Option String}
    (hdefault : ∀ strategy, t.defaultStrategy = some strategy → Text.isBlankText strategy = false)
    (hkind : n.kind = .gate field branches nullBranch)
    (hfield : (Attribute.ofName? field : Option ContextField).isSome = true) (hsome : branches ≠ [])
    (hbranches : t.checkBranches n.key branches = .ok ()) : t.Fits n := by
  have hdeclared : n.branches = branches := by rw [Node.branches, hkind]
  exact
    { terminal := by simp [Node.isTerminal, hkind]
      note := by simp [hkind]
      twoWay := by simp [hkind]
      branches := fun _ => hdeclared ▸ hsome
      attributes := by simpa [Node.attributes, hkind] using hfield
      own := by simp [hkind]
      leads := hdeclared ▸ leads_of_checkBranches hdefault hbranches }

/-- **A node that passes its check fits its kind.** -/
theorem fits_of_checkNode
    (hdefault : ∀ strategy, t.defaultStrategy = some strategy → Text.isBlankText strategy = false)
    (h : t.checkNode n = .ok ()) : t.Fits n := by
  unfold checkNode at h
  cases hkind : n.kind with
  | condition spec =>
    simp only [hkind] at h
    obtain ⟨hcondition, hbranches⟩ := then_ok_iff.1 h
    exact fits_of_condition hdefault hkind hcondition hbranches
  | gate field branches nullBranch =>
    simp only [hkind] at h
    rw [then_ok_iff, then_ok_iff, require_ok_iff, requireField_ok_iff] at h
    obtain ⟨hfield, hsome, hbranches⟩ := h
    exact fits_of_gate hdefault hkind hfield (by simpa using hsome) hbranches
  | strategy id params =>
    simp only [hkind] at h
    obtain ⟨hnone, hid⟩ := checkTerminal_ok h
    exact fits_of_terminal (.inl (by rw [Node.strategyRef?, hkind])) hnone hid
  | assessment id =>
    simp only [hkind] at h
    obtain ⟨hnone, hid⟩ := checkTerminal_ok h
    exact fits_of_terminal (.inr (by rw [Node.assessmentRef?, hkind])) hnone hid
  | note text =>
    simp only [hkind] at h
    rw [require_ok_iff, beq_iff_eq] at h
    exact
      { terminal := by simp [Node.isTerminal, hkind]
        note := fun _ _ => List.length_eq_one_iff.1 h
        twoWay := by simp [hkind]
        branches := by simp [Node.isBranching, hkind]
        attributes := by simp [Node.attributes, hkind]
        own := by simp [hkind]
        leads := by simp [Node.branches, hkind] }

end Nodes

/-! ### The root -/

/-- The root is the only node that is flagged or, where none is, the only one without a parent. -/
def StandsOut (nodes : List Node) (root : Node) : Prop :=
  nodes.filter Node.isRoot = [root] ∨
    nodes.filter Node.isRoot = [] ∧ nodes.filter (·.parent.isNone) = [root]

theorem onlyRoot_ok_iff {candidates : List Node} {root : Node} :
    onlyRoot candidates = .ok root ↔ candidates = [root] := by
  match candidates with
  | [] => simp [onlyRoot]
  | [n] => simp [onlyRoot]
  | _ :: _ :: _ => simp [onlyRoot]

theorem findRoot_ok_iff {nodes : List Node} {root : Node} :
    findRoot nodes = .ok root ↔ StandsOut nodes root := by
  unfold findRoot StandsOut
  cases nodes.filter Node.isRoot with
  | nil => simp [onlyRoot_ok_iff]
  | cons n rest => simp [onlyRoot_ok_iff]

/-! ### The arena -/

/-- **What building checks is what routing relies on.** The nodes of a built tree are those that it
was built from, linked by position as by key. No node is above itself, every node fits its kind,
and one root stands out. -/
theorem build_arena {nodes : List Node} {defaultStrategy : Option String} {t : Tree}
    (h : build nodes defaultStrategy = .ok t) :
    t.nodes = nodes ∧ (∃ l, links nodes = .ok l ∧ Represents l t) ∧
      (∀ n ∈ nodes, ¬ TransGen (IsParent nodes) n n) ∧ (∀ n ∈ nodes, t.Fits n) ∧
      StandsOut nodes t.root := by
  have S := build_sound h
  obtain ⟨_, _, hroot, _, hchecked, rfl, hd⟩ := build_ok h
  have hdefault : ∀ strategy, t.defaultStrategy = some strategy →
      Text.isBlankText strategy = false := by
    intro strategy hstrategy
    rw [hd, Option.filter_eq_some_iff] at hstrategy
    simpa using hstrategy.2
  exact ⟨rfl, S.exists_links, fun n => S.not_above_self,
    fun n hn => fits_of_checkNode hdefault (hchecked n hn), findRoot_ok_iff.1 hroot⟩

theorem build_arena_lending : build lendingNodes none = .ok lendingTree ∧
    lendingTree.nodes = lendingNodes ∧
    (∃ l, links lendingNodes = .ok l ∧ Represents l lendingTree) ∧
    (∀ n ∈ lendingNodes, ¬ TransGen (IsParent lendingNodes) n n) ∧
    (∀ n ∈ lendingNodes, lendingTree.Fits n) ∧ StandsOut lendingNodes lendingTree.root :=
  ⟨build_lendingNodes, build_arena build_lendingNodes⟩

end Lending.Tree
