import Lending.Proofs.Tree.Sound

/-! The nodes that the root of a tree is not above, and the warnings about them.

The walk from the root takes one node after the other from a queue and puts its children behind the
rest. `Visits` is that walk with no bound on its steps, and with the nodes that it visits. What it
has met, on the way or in the queue, is the root and the children of what it has visited
(`Frontier`), so that in a tree without circles it meets no node twice and ends, and has then
visited what is below the root. The warnings name the others. -/
namespace Lending.Tree
open Relation (ReflTransGen)

/-! ### The walk -/

/-- Visits the nodes of a queue breadth first, but for those whose keys were seen. -/
inductive Visits (t : Tree) : List String → List Node → List Node → Prop
  | done {seen : List String} : Visits t seen [] []
  | again {seen : List String} {n : Node} {queue made : List Node} (old : n.key ∈ seen)
    (h : Visits t seen queue made) : Visits t seen (n :: queue) made
  | visit {seen : List String} {n : Node} {queue made : List Node} (new : n.key ∉ seen)
    (h : Visits t (n.key :: seen)
      (queue ++ (t.children n.key).filter (·.key ∉ n.key :: seen)) made) :
    Visits t seen (n :: queue) (n :: made)

/-- There is one way to go. -/
theorem Visits.unique {t : Tree} {seen : List String} {queue made made' : List Node}
    (h : Visits t seen queue made) (h' : Visits t seen queue made') : made' = made := by
  induction h generalizing made' with
  | done => cases h'; rfl
  | again old _ ih =>
    cases h' with
    | again _ h' => exact ih h'
    | visit new => exact absurd old new
  | visit new _ ih =>
    cases h' with
    | again old => exact absurd old new
    | visit _ h' => rw [ih h']

/-! ### What it has met -/

/-- A point of the walk: nothing is there twice, and what is there is the root and the children of
the nodes that were seen. -/
structure Frontier (t : Tree) (seen : List String) (queue : List Node) : Prop where
  queued : queue ⊆ t.nodes
  known : seen ⊆ t.nodes.map Node.key
  once : (queue.map Node.key ++ seen).Nodup
  met_iff : ∀ n ∈ t.nodes, n ∈ queue ∨ n.key ∈ seen ↔
    n = t.root ∨ ∃ p, IsParent t.nodes p n ∧ p.key ∈ seen

namespace Frontier
variable {t : Tree} {seen : List String} {queue : List Node} {n c : Node}

theorem start (S : t.Sound) : Frontier t [] [t.root] where
  queued := List.cons_subset.2 ⟨S.root_mem, List.nil_subset _⟩
  known := List.nil_subset _
  once := List.nodup_singleton _
  met_iff n hn := by simp

theorem length_le (F : Frontier t seen queue) : queue.length + seen.length ≤ t.nodes.length := by
  have hsub : queue.map Node.key ++ seen ⊆ t.nodes.map Node.key :=
    List.append_subset.2 ⟨List.map_subset _ F.queued, F.known⟩
  simpa using (List.subperm_of_subset F.once hsub).length_le

/-- What was met is below the root, by the links that it was met along. -/
theorem below (S : t.Sound) (F : Frontier t seen queue) (hn : n ∈ t.nodes)
    (hmet : n ∈ queue ∨ n.key ∈ seen) : ReflTransGen (IsParent t.nodes) t.root n := by
  induction S.grounded n hn with
  | intro n _ ih =>
    rcases (F.met_iff n hn).1 hmet with rfl | ⟨p, hp, hseen⟩
    · exact .refl
    · exact (ih p hp hp.mem (.inr hseen)).tail hp

theorem not_seen (F : Frontier t seen (n :: queue)) : n.key ∉ seen := by
  have hnodup := F.once
  rw [List.map_cons, List.cons_append, List.nodup_cons, List.mem_append, not_or] at hnodup
  exact hnodup.1.2

/-- The children of the next node are met for the first time: the root is not among them, as it is
above that node, and they have no other parent. -/
theorem child_new (S : t.Sound) (F : Frontier t seen (n :: queue)) (hc : c ∈ t.children n.key) :
    c ∉ n :: queue ∧ c.key ∉ seen := by
  have hn : n ∈ t.nodes := F.queued (List.mem_cons_self ..)
  have hlink : IsParent t.nodes n c := S.isParent_of_mem_children hn hc
  rw [← not_or]
  intro hmet
  rcases (F.met_iff c (mem_children_iff.1 hc).1).1 hmet with rfl | ⟨p, hp, hseen⟩
  · have habove := F.below S hn (.inl (List.mem_cons_self ..))
    exact S.not_above_self hn (.head' hlink habove)
  · cases Option.some.inj (hlink.symm.trans hp)
    exact F.not_seen hseen

/-- One more node is seen: the parent of a node is seen if it was before, or if it is that node. -/
theorem parent_seen_cons (S : t.Sound) (hn : n ∈ t.nodes) {m : Node} :
    (∃ p, IsParent t.nodes p m ∧ p.key ∈ n.key :: seen) ↔
      (∃ p, IsParent t.nodes p m ∧ p.key ∈ seen) ∨ IsParent t.nodes n m := by
  constructor
  · rintro ⟨p, hp, hmem⟩
    rcases List.mem_cons.1 hmem with hsame | hseen
    · exact .inr (eq_of_key S.keys hp.mem hn hsame ▸ hp)
    · exact .inl ⟨p, hp, hseen⟩
  · rintro (⟨p, hp, hseen⟩ | hlink)
    · exact ⟨p, hp, List.mem_cons_of_mem _ hseen⟩
    · exact ⟨n, hlink, List.mem_cons_self ..⟩

/-- The next node changes its place, and its children are new. -/
theorem once_step (S : t.Sound) (F : Frontier t seen (n :: queue)) :
    ((queue ++ (t.children n.key).filter (·.key ∉ n.key :: seen)).map Node.key ++
      n.key :: seen).Nodup := by
  let new := (t.children n.key).filter (·.key ∉ n.key :: seen)
  have hperm : ((queue ++ new).map Node.key ++ n.key :: seen).Perm
      (new.map Node.key ++ ((n :: queue).map Node.key ++ seen)) := by
    rw [List.perm_iff_count]
    intro key
    simp only [List.map_append, List.map_cons, List.count_append, List.count_cons,
      List.cons_append]
    omega
  have hsub : (new.map Node.key).Sublist (t.nodes.map Node.key) :=
    (List.filter_sublist.trans List.filter_sublist).map Node.key
  refine hperm.nodup_iff.2 (List.nodup_append'.2 ⟨S.keys.sublist hsub, F.once, ?_⟩)
  intro key hkey hmet
  obtain ⟨c, hc, rfl⟩ := List.mem_map.1 hkey
  have hchild := List.mem_of_mem_filter hc
  obtain ⟨hqueue, hseen⟩ := F.child_new S hchild
  rcases List.mem_append.1 hmet with hmem | hmem
  · exact hqueue ((key_mem_map_iff S.keys F.queued (mem_children_iff.1 hchild).1).1 hmem)
  · exact hseen hmem

/-- What is met after the next node is what was met before, and the children of that node. -/
theorem met_step (S : t.Sound) (hn : n ∈ t.nodes) {m : Node} (hm : m ∈ t.nodes) :
    m ∈ queue ++ (t.children n.key).filter (·.key ∉ n.key :: seen) ∨ m.key ∈ n.key :: seen ↔
      (m ∈ n :: queue ∨ m.key ∈ seen) ∨ IsParent t.nodes n m := by
  have hkey : m.key = n.key ↔ m = n := ⟨eq_of_key S.keys hm hn, congrArg Node.key⟩
  have hlink : m ∈ t.children n.key ↔ IsParent t.nodes n m :=
    ⟨S.isParent_of_mem_children hn, mem_children_of_isParent hm⟩
  simp only [List.mem_append, List.mem_filter, decide_eq_true_eq, List.mem_cons, hkey, hlink]
  tauto

/-- The children of the next node are met, and it is seen. -/
theorem step (S : t.Sound) (F : Frontier t seen (n :: queue)) :
    Frontier t (n.key :: seen)
      (queue ++ (t.children n.key).filter (·.key ∉ n.key :: seen)) where
  queued := by
    refine List.append_subset.2 ⟨(List.cons_subset.1 F.queued).2, fun c hc => ?_⟩
    exact (mem_children_iff.1 (List.mem_of_mem_filter hc)).1
  known := List.cons_subset.2
    ⟨List.mem_map_of_mem (F.queued (List.mem_cons_self ..)), F.known⟩
  once := F.once_step S
  met_iff m hm := by
    have hn : n ∈ t.nodes := F.queued (List.mem_cons_self ..)
    rw [met_step S hn hm, F.met_iff m hm, parent_seen_cons S hn, or_assoc]

/-- The walk goes on until the queue is empty. As the nodes met are that many nodes of the list, the
bound on the steps is not met. -/
theorem run (S : t.Sound) (F : Frontier t seen queue) (fuel : Nat)
    (hfuel : t.nodes.length ≤ fuel + seen.length) : ∃ made, Visits t seen queue made ∧
      t.visit fuel queue seen = (made.map Node.key).reverse ++ seen ∧
      Frontier t ((made.map Node.key).reverse ++ seen) [] ∧ made ⊆ t.nodes := by
  induction fuel generalizing seen queue with
  | zero =>
    have hlength := F.length_le
    obtain rfl : queue = [] := List.eq_nil_of_length_eq_zero (by omega)
    exact ⟨[], .done, rfl, F, List.nil_subset _⟩
  | succ fuel ih =>
    cases queue with
    | nil => exact ⟨[], .done, rfl, F, List.nil_subset _⟩
    | cons n queue =>
      obtain ⟨made, hvisits, hseen, hend, hmade⟩ :=
        ih (F.step S) (by rw [List.length_cons]; omega)
      have hall : (made.map Node.key).reverse ++ n.key :: seen =
          ((n :: made).map Node.key).reverse ++ seen := by simp
      refine ⟨n :: made, .visit F.not_seen hvisits, ?_, hall ▸ hend, ?_⟩
      · rw [visit, if_neg F.not_seen, hseen, hall]
      · exact List.cons_subset.2 ⟨F.queued (List.mem_cons_self ..), hmade⟩

/-- At the end of the walk, what was seen is what is below the root. -/
theorem seen_iff (S : t.Sound) (F : Frontier t seen []) (hn : n ∈ t.nodes) :
    n.key ∈ seen ↔ ReflTransGen (IsParent t.nodes) t.root n := by
  refine ⟨fun hseen => F.below S hn (.inr hseen), fun hbelow => ?_⟩
  have hmet {m : Node} (hm : m ∈ t.nodes)
      (h : m = t.root ∨ ∃ p, IsParent t.nodes p m ∧ p.key ∈ seen) : m.key ∈ seen :=
    ((F.met_iff m hm).2 h).resolve_left List.not_mem_nil
  induction hbelow with
  | refl => exact hmet hn (.inl rfl)
  | tail _ hlink ih => exact hmet hn (.inr ⟨_, hlink, ih hlink.mem⟩)

end Frontier

/-- The walk from the root ends, with what `reached` gives: it visits what is below the root. -/
theorem Sound.visits {t : Tree} (S : t.Sound) : ∃ made, Visits t [] [t.root] made ∧
    t.reached = (made.map Node.key).reverse ∧ made.Nodup ∧
    ∀ n, n ∈ made ↔ n ∈ t.nodes ∧ ReflTransGen (IsParent t.nodes) t.root n := by
  obtain ⟨made, hvisits, hreached, hend, hmade⟩ :=
    (Frontier.start S).run S (t.nodes.length + 2) (by simp)
  rw [List.append_nil] at hreached hend
  have honce : made.Nodup := by
    have hkeys := hend.once
    rw [List.map_nil, List.nil_append, List.nodup_reverse] at hkeys
    exact hkeys.of_map
  have hbelow {n : Node} (hn : n ∈ t.nodes) :
      n ∈ made ↔ ReflTransGen (IsParent t.nodes) t.root n := by
    rw [← hend.seen_iff S hn, List.mem_reverse, key_mem_map_iff S.keys hmade hn]
  refine ⟨made, hvisits, hreached, honce, fun n => ⟨fun hn => ?_, fun hn => ?_⟩⟩
  · exact ⟨hmade hn, (hbelow (hmade hn)).1 hn⟩
  · exact (hbelow hn.1).2 hn.2

/-! ### The warnings -/

/-- Parent links do not lead from `n` to the root, in any number of steps or in none. -/
def IsStray (nodes : List Node) (root n : Node) : Prop :=
  ¬ ReflTransGen (IsParent nodes) root n

theorem Sound.mem_unreachable_iff {t : Tree} (S : t.Sound) {n : Node} (hn : n ∈ t.nodes) :
    n ∈ t.unreachable ↔ IsStray t.nodes t.root n := by
  obtain ⟨made, _, hreached, _, hmade⟩ := S.visits
  have hseen : n.key ∈ t.reached ↔ n ∈ made := by
    rw [hreached, List.mem_reverse]
    exact key_mem_map_iff S.keys (fun m hm => ((hmade m).1 hm).1) hn
  rw [unreachable, List.mem_filter, decide_eq_true_eq, hseen, hmade, and_iff_right hn,
    and_iff_right hn, IsStray]

theorem Sound.nodup_warnings {t : Tree} (S : t.Sound) : t.warnings.Nodup := by
  have hkeys : (t.unreachable.map Node.key).Nodup := S.keys.sublist (List.filter_sublist.map _)
  have hwarnings : t.warnings = (t.unreachable.map Node.key).map Warning.unreachable :=
    (List.map_map ..).symm
  exact hwarnings ▸ hkeys.map fun _ _ => Warning.unreachable.inj

theorem warnings_buildNoted {nodes : List Node} {defaultStrategy : Option String} {t : Tree}
    (h : build nodes defaultStrategy = .ok t) :
    (buildNoted nodes defaultStrategy).warnings = t.warnings := by
  rw [buildNoted, h]
  exact List.append_nil _

/-- What building tells of the nodes that the root is not above. -/
structure ReportsStrays (nodes : List Node) (t : Tree) (warnings : List Warning) : Prop where
  /-- The walk ends, and there is no other way for it to go. It visits each node once that is no
  stray. -/
  ends : ∃ made, Visits t [] [t.root] made ∧
    (∀ other, Visits t [] [t.root] other → other = made) ∧
    made.Nodup ∧ ∀ n, n ∈ made ↔ n ∈ nodes ∧ ¬ IsStray nodes t.root n
  /-- The strays have a warning each, in the order of the list. -/
  warned : ∃ strays : List Node, strays.Sublist nodes ∧
    (∀ n ∈ nodes, n ∈ strays ↔ IsStray nodes t.root n) ∧
    warnings = strays.map (fun n => .unreachable n.key) ∧
    warnings.map Warning.message =
      strays.map fun n => s!"Node '{n.key}' is not reachable from the root"
  once : warnings.Nodup

/-- **The warnings about nodes that the root does not reach are exact**: those from which no parent
links lead to the root have one each, whether they are above a flagged root or beside it. -/
theorem strays_reported {nodes : List Node} {defaultStrategy : Option String} {t : Tree}
    (h : build nodes defaultStrategy = .ok t) :
    ReportsStrays nodes t (buildNoted nodes defaultStrategy).warnings := by
  have S := build_sound h
  obtain ⟨_, _, _, _, _, rfl, _⟩ := build_ok h
  rw [warnings_buildNoted h]
  obtain ⟨made, hvisits, _, honce, hmade⟩ := S.visits
  constructor
  case ends =>
    refine ⟨made, hvisits, fun _ => hvisits.unique, honce, fun n => ?_⟩
    rw [hmade, IsStray, not_not]
  case warned =>
    exact ⟨t.unreachable, List.filter_sublist, fun n => S.mem_unreachable_iff, rfl,
      List.map_map ..⟩
  case once => exact S.nodup_warnings

/-- A score is asked for twice. The second question, for new applications, is flagged as the root;
the first and the strategy beside the second are left over. -/
def leftoverNodes : List Node :=
  let bands := [{ Branch.ofLabel "Low" with max := some 550 },
    { Branch.ofLabel "High" with min := some 550 }]
  [ Node.ofKind "former" (.gate "application_score" bands none),
    { Node.ofKind "legacy" (.strategy "legacy_v1" []) with
      parent := some "former", label := some "Low" },
    { Node.ofKind "gate" (.gate "application_score" bands none) with
      parent := some "former", label := some "High", isRoot := true },
    { Node.ofKind "manual" (.assessment "manual_review") with
      parent := some "gate", label := some "Low" },
    { Node.ofKind "standard" (.strategy "standard_v1" []) with
      parent := some "gate", label := some "High" } ]

theorem strays_reported_leftover : ∃ t, build leftoverNodes none = .ok t ∧
    (buildNoted leftoverNodes none).warnings = [.unreachable "former", .unreachable "legacy"] ∧
    ReportsStrays leftoverNodes t (buildNoted leftoverNodes none).warnings :=
  ⟨_, rfl, by decide, strays_reported rfl⟩

end Lending.Tree
