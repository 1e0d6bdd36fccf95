import Lending.Proofs.Checks
import Mathlib.Data.List.Nodup
import Mathlib.Data.List.Perm.Subperm
import Mathlib.Logic.Relation

/-! Marking nodes along their parent links.

The links are followed upward from one node after the other. On the way a node is not marked, or
it is in the chain that is being followed, or it is marked for good, and so are all nodes of a chain
that comes to an end. `Climbs` and `Marks` are the two loops with no bound on their steps, and with
the keys that they mark. They end, as `markAll` does (`marks_markAll`), they mark no key twice, and
they fail at a node that is above itself, if there is one, and nowhere else. -/
namespace Lending.Tree
open Relation (TransGen)

/-- The node `p` is the parent of `n`. -/
def IsParent (nodes : List Node) (p n : Node) : Prop :=
  parentOf? nodes n = some p

/-! ### Keys -/

theorem eq_of_key {nodes : List Node} (hk : (nodes.map Node.key).Nodup) {m n : Node}
    (hm : m ∈ nodes) (hn : n ∈ nodes) (h : m.key = n.key) : m = n :=
  List.inj_on_of_nodup_map hk hm hn h

/-- A node is among others by its key. -/
theorem key_mem_map_iff {nodes items : List Node} (hk : (nodes.map Node.key).Nodup)
    (hitems : items ⊆ nodes) {n : Node} (hn : n ∈ nodes) :
    n.key ∈ items.map Node.key ↔ n ∈ items := by
  refine ⟨fun hkey => ?_, List.mem_map_of_mem⟩
  obtain ⟨m, hm, hsame⟩ := List.mem_map.1 hkey
  exact eq_of_key hk (hitems hm) hn hsame ▸ hm

theorem mem_of_nodeOf? {nodes : List Node} {key : String} {n : Node}
    (h : nodeOf? nodes key = some n) : n ∈ nodes ∧ n.key = key := by
  constructor
  · exact List.mem_of_find?_eq_some h
  · have hkey := List.find?_some h
    exact beq_iff_eq.1 hkey

theorem nodeOf?_of_mem {nodes : List Node} (hk : (nodes.map Node.key).Nodup) {n : Node}
    (hn : n ∈ nodes) : nodeOf? nodes n.key = some n := by
  cases hfind : nodeOf? nodes n.key with
  | none =>
    have hne := List.find?_eq_none.1 hfind n hn
    exact absurd (beq_self_eq_true n.key) hne
  | some m =>
    obtain ⟨hm, hkey⟩ := mem_of_nodeOf? hfind
    rw [eq_of_key hk hm hn hkey]

theorem IsParent.mem {nodes : List Node} {p n : Node} (h : IsParent nodes p n) : p ∈ nodes := by
  obtain ⟨key, _, hfind⟩ := Option.bind_eq_some_iff.1 h
  exact (mem_of_nodeOf? hfind).1

/-! ### The loops -/

/-- Follows parent links from a node, if there is one, behind a chain of keys. -/
inductive Climbs (nodes : List Node) (marked : List String) :
    List String → Option Node → List String → Except String (List String) → Prop
  | top {chain : List String} : Climbs nodes marked chain none [] (.ok (chain ++ marked))
  | known {chain : List String} {n : Node} (h : n.key ∈ marked) :
    Climbs nodes marked chain (some n) [] (.ok (chain ++ marked))
  | circle {chain : List String} {n : Node} (new : n.key ∉ marked) (h : n.key ∈ chain) :
    Climbs nodes marked chain (some n) [] (.error n.key)
  | mark {chain made : List String} {n : Node} {result : Except String (List String)}
    (new : n.key ∉ marked) (fresh : n.key ∉ chain)
    (h : Climbs nodes marked (n.key :: chain) (parentOf? nodes n) made result) :
    Climbs nodes marked chain (some n) (n.key :: made) result

/-- Follows them from one node after the other. -/
inductive Marks (nodes : List Node) :
    List String → List Node → List String → Except String (List String) → Prop
  | done {marked : List String} : Marks nodes marked [] [] (.ok marked)
  | stop {marked made : List String} {n : Node} {rest : List Node} {key : String}
    (h : Climbs nodes marked [] (some n) made (.error key)) :
    Marks nodes marked (n :: rest) made (.error key)
  | next {marked marked' made made' : List String} {n : Node} {rest : List Node}
    {result : Except String (List String)}
    (h : Climbs nodes marked [] (some n) made (.ok marked'))
    (after : Marks nodes marked' rest made' result) :
    Marks nodes marked (n :: rest) (made ++ made') result

variable {nodes items : List Node} {chain marked marked' made made' : List String}
  {cur : Option Node} {n : Node} {result result' : Except String (List String)}

theorem Climbs.unique (h : Climbs nodes marked chain cur made result)
    (h' : Climbs nodes marked chain cur made' result') : made = made' ∧ result = result' := by
  induction h generalizing made' with
  | top => cases h'; exact ⟨rfl, rfl⟩
  | known hmem =>
    cases h' with
    | known => exact ⟨rfl, rfl⟩
    | circle new => exact absurd hmem new
    | mark new => exact absurd hmem new
  | circle new hmem =>
    cases h' with
    | known hmarked => exact absurd hmarked new
    | circle => exact ⟨rfl, rfl⟩
    | mark _ fresh => exact absurd hmem fresh
  | mark new fresh _ ih =>
    cases h' with
    | known hmarked => exact absurd hmarked new
    | circle _ hmem => exact absurd hmem fresh
    | mark _ _ h' =>
      obtain ⟨rfl, rfl⟩ := ih h'
      exact ⟨rfl, rfl⟩

/-- There is one way to go. -/
theorem Marks.unique (h : Marks nodes marked items made result)
    (h' : Marks nodes marked items made' result') : made = made' ∧ result = result' := by
  induction h generalizing made' with
  | done => cases h'; exact ⟨rfl, rfl⟩
  | stop hn =>
    cases h' with
    | stop hn' => exact hn.unique hn'
    | next hn' => cases (hn.unique hn').2
  | next hn _ ih =>
    cases h' with
    | stop hn' => cases (hn.unique hn').2
    | next hn' after' =>
      obtain ⟨rfl, heq⟩ := hn.unique hn'
      cases heq
      obtain ⟨rfl, rfl⟩ := ih after'
      exact ⟨rfl, rfl⟩

/-! ### They end -/

/-- A chain holds no key twice, so it cannot be longer than the list of nodes, and the bound on the
steps is not met. -/
theorem climbs_markChain (marked : List String) (fuel : Nat) (hn : n ∈ nodes)
    (hchain : chain ⊆ nodes.map Node.key) (hnodup : chain.Nodup) (hfuel : nodes.length < chain.length + fuel) :
    ∃ made, Climbs nodes marked chain (some n) made (markChain nodes marked fuel chain n) := by
  induction fuel generalizing chain n with
  | zero =>
    have hlength := (List.subperm_of_subset hnodup hchain).length_le
    rw [List.length_map] at hlength
    omega
  | succ fuel ih =>
    rw [markChain]
    by_cases hmarked : n.key ∈ marked
    · rw [if_pos hmarked]
      exact ⟨_, .known hmarked⟩
    · rw [if_neg hmarked]
      by_cases hcircle : n.key ∈ chain
      · rw [if_pos hcircle]
        exact ⟨_, .circle hmarked hcircle⟩
      · rw [if_neg hcircle]
        cases hp : parentOf? nodes n with
        | none =>
          refine ⟨[n.key], .mark hmarked hcircle ?_⟩
          rw [hp]
          exact .top
        | some p =>
          have hparent : IsParent nodes p n := hp
          obtain ⟨made, h⟩ := ih hparent.mem
            (List.cons_subset.2 ⟨List.mem_map_of_mem hn, hchain⟩)
            (List.nodup_cons.2 ⟨hcircle, hnodup⟩) (by rw [List.length_cons]; omega)
          refine ⟨n.key :: made, .mark hmarked hcircle ?_⟩
          rw [hp]
          exact h

theorem marks_foldlM (hitems : items ⊆ nodes) (marked : List String) :
    ∃ made, Marks nodes marked items made (items.foldlM
      (fun marked n => markChain nodes marked (nodes.length + 1) [] n) marked) := by
  induction items generalizing marked with
  | nil => exact ⟨_, .done⟩
  | cons n rest ih =>
    obtain ⟨hn, hrest⟩ := List.cons_subset.1 hitems
    obtain ⟨made, h⟩ := climbs_markChain marked (nodes.length + 1) hn
      (List.nil_subset _) List.nodup_nil (by simp)
    rw [List.foldlM_cons]
    cases hresult : markChain nodes marked (nodes.length + 1) [] n with
    | error key => exact ⟨made, .stop (hresult ▸ h)⟩
    | ok marked' =>
      obtain ⟨made', after⟩ := ih hrest marked'
      exact ⟨made ++ made', .next (hresult ▸ h) after⟩

/-- The loop over all nodes ends, and its end is that of `markAll`. -/
theorem marks_markAll (nodes : List Node) :
    ∃ made, Marks nodes [] nodes made (markAll nodes) :=
  marks_foldlM (List.Subset.refl nodes) []

/-! ### What they mark -/

theorem Climbs.fresh (h : Climbs nodes marked chain cur made result) :
    made.Nodup ∧ ∀ key ∈ made, key ∉ chain ∧ key ∉ marked := by
  induction h with
  | mark new fresh _ ih =>
    obtain ⟨hnodup, hfresh⟩ := ih
    refine ⟨List.nodup_cons.2 ⟨fun hmem => ?_, hnodup⟩, List.forall_mem_cons.2 ⟨⟨fresh, new⟩, ?_⟩⟩
    · exact (hfresh _ hmem).1 (List.mem_cons_self ..)
    · exact fun key hkey => ⟨fun hmem => (hfresh key hkey).1 (List.mem_cons_of_mem _ hmem),
        (hfresh key hkey).2⟩
  | _ => exact ⟨List.nodup_nil, List.forall_mem_nil _⟩

/-- What is marked on the way is marked for good, and the chain before it. -/
theorem Climbs.marked_eq (h : Climbs nodes marked chain cur made result)
    (hok : result = .ok marked') : marked' = made.reverse ++ chain ++ marked := by
  induction h with
  | top => cases hok; rfl
  | known => cases hok; rfl
  | circle => cases hok
  | mark _ _ _ ih =>
    rw [ih hok]
    simp

theorem Marks.fresh (h : Marks nodes marked items made result) :
    made.Nodup ∧ ∀ key ∈ made, key ∉ marked := by
  induction h with
  | done => exact ⟨List.nodup_nil, List.forall_mem_nil _⟩
  | stop hn => exact ⟨hn.fresh.1, fun key hkey => (hn.fresh.2 key hkey).2⟩
  | next hn _ ih =>
    obtain ⟨hnodup, hfresh⟩ := hn.fresh
    obtain ⟨hnodup', hfresh'⟩ := ih
    have hmarked := hn.marked_eq rfl
    rw [hmarked, List.append_nil] at hfresh'
    refine ⟨List.nodup_append.2 ⟨hnodup, hnodup', fun key hkey key' hkey' heq => ?_⟩, ?_⟩
    · exact hfresh' key' hkey' (List.mem_append_left _ (List.mem_reverse.2 (heq ▸ hkey)))
    · exact List.forall_mem_append.2 ⟨fun key hkey => (hfresh key hkey).2,
        fun key hkey hmem => hfresh' key hkey (List.mem_append_right _ hmem)⟩

theorem Marks.marked_eq (h : Marks nodes marked items made result) (hok : result = .ok marked') :
    marked' = made.reverse ++ marked := by
  induction h with
  | done => cases hok; rfl
  | stop => cases hok
  | next hn _ ih =>
    rw [ih hok, hn.marked_eq rfl]
    simp

/-- The node that a chain begins with is marked. -/
theorem Climbs.mem (h : Climbs nodes marked chain (some n) made (.ok marked')) :
    n.key ∈ marked' := by
  rw [h.marked_eq rfl]
  cases h with
  | known hmem => exact List.mem_append_right _ hmem
  | mark => simp

theorem Marks.mem (h : Marks nodes marked items made result) (hok : result = .ok marked') :
    ∀ n ∈ items, n.key ∈ marked' := by
  induction h with
  | done => exact List.forall_mem_nil _
  | stop => cases hok
  | next hn after ih =>
    refine List.forall_mem_cons.2 ⟨?_, ih hok⟩
    rw [after.marked_eq hok]
    exact List.mem_append_right _ hn.mem

theorem Climbs.subset (hcur : ∀ n ∈ cur, n ∈ nodes)
    (h : Climbs nodes marked chain cur made result) : made ⊆ nodes.map Node.key := by
  induction h with
  | mark _ _ _ ih =>
    have hn := hcur _ rfl
    refine List.cons_subset.2 ⟨List.mem_map_of_mem hn, ih fun p hp => ?_⟩
    exact IsParent.mem hp
  | _ => exact List.nil_subset _

theorem Marks.subset (h : Marks nodes marked items made result) (hitems : items ⊆ nodes) :
    made ⊆ nodes.map Node.key := by
  have hcur {n : Node} (hn : n ∈ nodes) : ∀ m ∈ some n, m ∈ nodes :=
    fun m hm => Option.mem_some.1 hm ▸ hn
  induction h with
  | done => exact List.nil_subset _
  | stop hn => exact hn.subset (hcur (List.cons_subset.1 hitems).1)
  | next hn _ ih =>
    obtain ⟨hmem, hrest⟩ := List.cons_subset.1 hitems
    exact List.append_subset.2 ⟨hn.subset (hcur hmem), ih hrest⟩

/-- Where the loop comes to its end, it has marked every node once. -/
theorem Marks.perm (hk : (nodes.map Node.key).Nodup) (h : Marks nodes [] nodes made (.ok marked)) :
    made.Perm (nodes.map Node.key) := by
  have hall := h.mem rfl
  rw [h.marked_eq rfl, List.append_nil] at hall
  refine (List.perm_ext_iff_of_nodup h.fresh.1 hk).2 fun key => ⟨fun hkey => ?_, fun hkey => ?_⟩
  · exact h.subset (List.Subset.refl nodes) hkey
  · obtain ⟨n, hn, rfl⟩ := List.mem_map.1 hkey
    exact List.mem_reverse.1 (hall n hn)

/-! ### Circles -/

/-- A node whose chain ends is not above itself. -/
theorem not_above_self_of_acc (h : Acc (IsParent nodes) n) : ¬ TransGen (IsParent nodes) n n := by
  replace h : Acc (TransGen (IsParent nodes)) n := h.transGen
  intro habove
  induction h with
  | intro m _ ih => exact ih m habove habove

/-- The loop fails at a node above itself, as every key of a chain is that of a node below. -/
theorem Climbs.circle_above (hk : (nodes.map Node.key).Nodup) {key : String}
    (h : Climbs nodes marked chain cur made result) (hfails : result = .error key)
    (hbelow : ∀ n ∈ cur, n ∈ nodes ∧
      ∀ key ∈ chain, ∃ m ∈ nodes, m.key = key ∧ TransGen (IsParent nodes) n m) :
    ∃ n ∈ nodes, n.key = key ∧ TransGen (IsParent nodes) n n := by
  induction h with
  | top => cases hfails
  | known => cases hfails
  | circle _ hmem =>
    cases hfails
    obtain ⟨hn, hchain⟩ := hbelow _ rfl
    obtain ⟨m, hm, hkey, habove⟩ := hchain _ hmem
    exact ⟨m, hm, hkey, eq_of_key hk hm hn hkey ▸ habove⟩
  | mark _ _ _ ih =>
    obtain ⟨hn, hchain⟩ := hbelow _ rfl
    refine ih hfails fun p (hp : IsParent nodes p _) => ⟨hp.mem, List.forall_mem_cons.2 ⟨?_, ?_⟩⟩
    · exact ⟨_, hn, rfl, .single hp⟩
    · intro key hkey
      obtain ⟨m, hm, hmkey, habove⟩ := hchain key hkey
      exact ⟨m, hm, hmkey, .head hp habove⟩

theorem Marks.circle_above (hk : (nodes.map Node.key).Nodup) {key : String}
    (h : Marks nodes marked items made result) (hfails : result = .error key)
    (hitems : items ⊆ nodes) : ∃ n ∈ nodes, n.key = key ∧ TransGen (IsParent nodes) n n := by
  induction h with
  | done => cases hfails
  | stop hn =>
    refine hn.circle_above hk hfails fun m hm => ⟨?_, List.forall_mem_nil _⟩
    exact Option.mem_some.1 hm ▸ (List.cons_subset.1 hitems).1
  | next _ _ ih => exact ih hfails (List.cons_subset.1 hitems).2

/-- Chains from the marked nodes end. -/
def Grounded (nodes : List Node) (marked : List String) : Prop :=
  ∀ n ∈ nodes, n.key ∈ marked → Acc (IsParent nodes) n

namespace Grounded

theorem nil : Grounded nodes [] :=
  fun _ _ hmem => absurd hmem List.not_mem_nil

theorem cons (hk : (nodes.map Node.key).Nodup) (hn : n ∈ nodes) (hacc : Acc (IsParent nodes) n)
    (hg : Grounded nodes marked) : Grounded nodes (n.key :: marked) := by
  intro m hm hmem
  rcases List.mem_cons.1 hmem with hkey | hmem
  · exact eq_of_key hk hm hn hkey ▸ hacc
  · exact hg m hm hmem

theorem append (hchain : Grounded nodes chain) (hg : Grounded nodes marked) :
    Grounded nodes (chain ++ marked) := by
  intro m hm hmem
  rcases List.mem_append.1 hmem with hmem | hmem
  · exact hchain m hm hmem
  · exact hg m hm hmem

end Grounded

/-- A chain that comes to its end marks nodes whose chains end: those of the chain are below the
node that is followed, so theirs end as soon as that of the node does. -/
theorem Climbs.grounded (hk : (nodes.map Node.key).Nodup) (hg : Grounded nodes marked)
    (h : Climbs nodes marked chain cur made result) (hok : result = .ok marked')
    (hcur : ∀ n ∈ cur, n ∈ nodes) (hchain : (∀ n ∈ cur, Acc (IsParent nodes) n) →
      Grounded nodes chain) : Grounded nodes marked' := by
  induction h with
  | top =>
    cases hok
    exact (hchain fun n hn => absurd hn (Option.not_mem_none n)).append hg
  | known hmem =>
    cases hok
    refine (hchain fun n hn => hg n (hcur n hn) ?_).append hg
    exact Option.mem_some.1 hn ▸ hmem
  | circle => cases hok
  | @mark _ _ n _ _ _ _ ih =>
    refine ih hok (fun p (hp : IsParent nodes p n) => hp.mem) fun hparents => ?_
    have hacc : Acc (IsParent nodes) n := ⟨n, hparents⟩
    exact Grounded.cons hk (hcur n rfl) hacc
      (hchain fun m hm => Option.mem_some.1 hm ▸ hacc)

theorem Marks.grounded (hk : (nodes.map Node.key).Nodup) (hg : Grounded nodes marked)
    (h : Marks nodes marked items made result) (hok : result = .ok marked')
    (hitems : items ⊆ nodes) : Grounded nodes marked' := by
  induction h with
  | done => cases hok; exact hg
  | stop => cases hok
  | next hn _ ih =>
    obtain ⟨hmem, hrest⟩ := List.cons_subset.1 hitems
    refine ih (hn.grounded hk hg rfl (fun m hm => ?_) fun _ => Grounded.nil) hok hrest
    exact Option.mem_some.1 hm ▸ hmem

/-- Where no circle was found, every chain of parent links ends. -/
theorem markAll_grounded (hk : (nodes.map Node.key).Nodup) (h : markAll nodes = .ok marked) :
    ∀ n ∈ nodes, Acc (IsParent nodes) n := by
  obtain ⟨made, hmarks⟩ := marks_markAll nodes
  have hg := hmarks.grounded hk Grounded.nil h (List.Subset.refl nodes)
  exact fun n hn => hg n hn (hmarks.mem h n hn)

/-- The circle that is found is one. -/
theorem markAll_error (hk : (nodes.map Node.key).Nodup) {key : String}
    (h : markAll nodes = .error key) :
    ∃ n ∈ nodes, n.key = key ∧ TransGen (IsParent nodes) n n := by
  obtain ⟨made, hmarks⟩ := marks_markAll nodes
  exact hmarks.circle_above hk h (List.Subset.refl nodes)

/-- Where every chain of parent links ends, no circle is found. -/
theorem markAll_ok (hk : (nodes.map Node.key).Nodup) (hends : ∀ n ∈ nodes, Acc (IsParent nodes) n) :
    ∃ marked, markAll nodes = .ok marked := by
  cases h : markAll nodes with
  | ok marked => exact ⟨marked, rfl⟩
  | error key =>
    obtain ⟨n, hn, _, habove⟩ := markAll_error hk h
    exact absurd habove (not_above_self_of_acc (hends n hn))

/-- A circle is found if there is one. -/
theorem markAll_fails_iff (hk : (nodes.map Node.key).Nodup) :
    (∃ key, markAll nodes = .error key) ↔ ∃ n ∈ nodes, TransGen (IsParent nodes) n n := by
  constructor
  · rintro ⟨key, h⟩
    obtain ⟨n, hn, _, habove⟩ := markAll_error hk h
    exact ⟨n, hn, habove⟩
  · rintro ⟨n, hn, habove⟩
    cases h : markAll nodes with
    | error key => exact ⟨key, rfl⟩
    | ok marked => exact absurd habove (not_above_self_of_acc (markAll_grounded hk h n hn))

end Lending.Tree
