import Lending.Proofs.Tree.Label
import Lending.Proofs.Tree.Sound
import Lending.Tree.Routing
import Mathlib.Data.List.Chain
import Mathlib.Data.List.Perm.Subperm

/-! The walk through a sound tree.

`Leads` is one turn of the walk, from a node to the node that is entered next, and a *trail* is
any run of turns from the root. Nothing in them looks at the nodes that were entered before.
`Walks` is the whole walk in the same sense, with the nodes that it enters.

Each turn goes from a parent to its child, and in a sound tree no node is above itself; so no
trail enters a node twice, the check for entered nodes never fires, and what `walkFrom` computes
is a walk in the sense of `Walks`. -/
namespace Lending.Tree
open Relation (ReflTransGen TransGen)

/-- From `n` the walk goes on to `c`. -/
inductive Leads (t : Tree) (ctx : Context) (n c : Node) : Prop where
  | branch (s : PathStep) (decides : n.step? ctx = some s)
      (taken : t.childFor n.key s.branch = some c)
  | note (passes : n.step? ctx = none) (goesOn : n.isTerminal = false)
      (only : t.children n.key = [c])

/-- The nodes that a walk from the root enters one after the other, up to any of them. -/
structure Trail (t : Tree) (ctx : Context) (trail : List Node) : Prop where
  starts : trail.head? = some t.root
  linked : trail.IsChain (t.Leads ctx)

/-- The walk that enters the nodes of a list. -/
inductive Walks (t : Tree) (ctx : Context) : List Node → Walk → Prop where
  | arrived {n : Node} (passes : n.step? ctx = none) (ends : n.isTerminal = true) :
      Walks t ctx [n] ⟨[], .arrived n⟩
  | dangling {n : Node} {s : PathStep} (decides : n.step? ctx = some s)
      (missing : t.childFor n.key s.branch = none) :
      Walks t ctx [n] ⟨[s], .dangling n s.branch⟩
  | branch {n c : Node} {s : PathStep} {rest : List Node} {w : Walk}
      (decides : n.step? ctx = some s) (taken : t.childFor n.key s.branch = some c)
      (onward : Walks t ctx (c :: rest) w) :
      Walks t ctx (n :: c :: rest) ⟨s :: w.path, w.ending⟩
  | note {n c : Node} {rest : List Node} {w : Walk} (passes : n.step? ctx = none)
      (goesOn : n.isTerminal = false) (only : t.children n.key = [c])
      (onward : Walks t ctx (c :: rest) w) : Walks t ctx (n :: c :: rest) w

/-! ### One turn -/

theorem Leads.mem_children {t : Tree} {ctx : Context} {n c : Node} (h : t.Leads ctx n c) :
    c ∈ t.children n.key := by
  cases h with
  | branch s _ taken => exact mem_children_of_childFor taken
  | note _ _ only => rw [only]; exact List.mem_singleton_self c

theorem Leads.unique {t : Tree} {ctx : Context} {n c d : Node} (hc : t.Leads ctx n c)
    (hd : t.Leads ctx n d) : c = d := by
  cases hc with
  | branch s decides taken =>
    cases hd with
    | branch s' decides' taken' =>
      cases decides.symm.trans decides'
      exact Option.some.inj (taken.symm.trans taken')
    | note passes _ _ => cases decides.symm.trans passes
  | note passes _ only =>
    cases hd with
    | branch s decides _ => cases decides.symm.trans passes
    | note _ _ only' => exact (List.cons.inj (only.symm.trans only')).1

theorem Leads.mem {t : Tree} {ctx : Context} {n c : Node} (h : t.Leads ctx n c) : c ∈ t.nodes :=
  (mem_children_iff.1 h.mem_children).1

namespace Sound
variable {t : Tree} (S : t.Sound)
include S

/-- A turn goes from a parent to its child. -/
theorem isParent_of_leads {ctx : Context} {n c : Node} (hn : n ∈ t.nodes) (h : t.Leads ctx n c) :
    IsParent t.nodes n c :=
  S.isParent_of_mem_children hn h.mem_children

/-- A node that neither branches nor ends a route has one child. -/
theorem only_child {n : Node} {ctx : Context} (hn : n ∈ t.nodes) (hs : n.step? ctx = none)
    (ht : n.isTerminal = false) : ∃ c, t.children n.key = [c] := by
  obtain ⟨text, hkind⟩ := Node.note_of_passes hs ht
  have hcheck := S.checked n hn
  rw [checkNode, hkind] at hcheck
  exact List.length_eq_one_iff.1 (beq_iff_eq.1 (require_ok_iff.1 hcheck))

/-! ### Trails -/

/-- Down a chain of parents and children no key comes twice. -/
theorem nodup_of_chain {chain : List Node} (hmem : ∀ n ∈ chain, n ∈ t.nodes)
    (h : chain.IsChain (IsParent t.nodes)) : (chain.map Node.key).Nodup := by
  have hbelow : chain.Pairwise (TransGen (IsParent t.nodes)) :=
    List.isChain_iff_pairwise.1 (h.imp fun _ _ => TransGen.single)
  rw [List.Nodup, List.pairwise_map]
  refine hbelow.imp_of_mem fun {a b} ha hb hab hkey => ?_
  have hsame : a = b := eq_of_key S.keys (hmem a ha) (hmem b hb) hkey
  exact S.not_above_self (hmem a ha) (hsame ▸ hab)

theorem chain_of_leads {ctx : Context} {n : Node} {rest : List Node} (hn : n ∈ t.nodes)
    (h : (n :: rest).IsChain (t.Leads ctx)) :
    (∀ m ∈ n :: rest, m ∈ t.nodes) ∧ (n :: rest).IsChain (IsParent t.nodes) := by
  induction rest generalizing n with
  | nil => exact ⟨fun m hm => List.mem_singleton.1 hm ▸ hn, .singleton n⟩
  | cons c rest ih =>
    obtain ⟨hlead, hchain⟩ := List.isChain_cons_cons.1 h
    obtain ⟨hmem, hlinked⟩ := ih hlead.mem hchain
    exact ⟨List.forall_mem_cons.2 ⟨hn, hmem⟩,
      List.isChain_cons_cons.2 ⟨S.isParent_of_leads hn hlead, hlinked⟩⟩

end Sound

theorem Trail.eq_cons {t : Tree} {ctx : Context} {trail : List Node} (h : Trail t ctx trail) :
    ∃ rest, trail = t.root :: rest := by
  obtain ⟨hstart, _⟩ := h
  cases trail with
  | nil => cases hstart
  | cons n rest =>
    cases hstart
    exact ⟨rest, rfl⟩

namespace Sound
variable {t : Tree} (S : t.Sound)
include S

/-- **No trail enters a node twice**, so no trail is longer than the list of nodes. -/
theorem trail_nodup {ctx : Context} {trail : List Node} (h : Trail t ctx trail) :
    (trail.map Node.key).Nodup ∧ trail.length ≤ t.nodes.length := by
  obtain ⟨rest, rfl⟩ := h.eq_cons
  obtain ⟨hmem, hlinked⟩ := S.chain_of_leads S.root_mem h.linked
  have hnodup := S.nodup_of_chain hmem hlinked
  refine ⟨hnodup, ?_⟩
  have hsub : t.root :: rest ⊆ t.nodes := hmem
  exact (List.subperm_of_subset hnodup.of_map hsub).length_le

/-! ### The walk -/

/-- The node and all nodes below it were not entered so far. -/
def FreshFrom (nodes : List Node) (fresh : List String) (n : Node) : Prop :=
  ∀ m ∈ nodes, ReflTransGen (IsParent nodes) n m → m.key ∈ fresh

/-- Entering a node leaves its children and what is below them fresh. -/
theorem freshFrom_child {fresh : List String} {n c : Node} (hn : n ∈ t.nodes)
    (hfresh : FreshFrom t.nodes fresh n) (hc : IsParent t.nodes n c) :
    FreshFrom t.nodes (fresh.erase n.key) c := by
  intro m hm hbelow
  have hne : m.key ≠ n.key := by
    intro hkey
    have hsame : m = n := eq_of_key S.keys hm hn hkey
    exact S.not_above_self hn (TransGen.head' hc (hsame ▸ hbelow))
  exact (List.mem_erase_of_ne hne).2 (hfresh m hm (ReflTransGen.head hc hbelow))

/-- What is computed is a walk: neither the check for entered nodes nor the one for annotations
without an only child comes in. -/
theorem walkFrom_walks {ctx : Context} (fresh : List String) (n : Node) (hn : n ∈ t.nodes)
    (hfresh : FreshFrom t.nodes fresh n) :
    ∃ rest, Walks t ctx (n :: rest) (t.walkFrom ctx fresh n) := by
  fun_induction walkFrom t ctx fresh n with
  | case1 fresh n entering s decides c taken w ih =>
    have hc : c ∈ t.children n.key := mem_children_of_childFor taken
    obtain ⟨rest, onward⟩ := ih (mem_children_iff.1 hc).1
      (S.freshFrom_child hn hfresh (S.isParent_of_mem_children hn hc))
    exact ⟨c :: rest, .branch decides taken onward⟩
  | case2 fresh n entering s decides missing => exact ⟨[], .dangling decides missing⟩
  | case3 fresh n entering passes ends => exact ⟨[], .arrived passes ends⟩
  | case4 fresh n entering passes goesOn c only ih =>
    have hc : c ∈ t.children n.key := only ▸ List.mem_singleton_self c
    obtain ⟨rest, onward⟩ := ih (mem_children_iff.1 hc).1
      (S.freshFrom_child hn hfresh (S.isParent_of_mem_children hn hc))
    exact ⟨c :: rest, .note passes (Bool.not_eq_true _ ▸ goesOn) only onward⟩
  | case5 fresh n entering passes goesOn none_only =>
    obtain ⟨c, only⟩ := S.only_child hn passes (Bool.not_eq_true _ ▸ goesOn)
    exact absurd only (none_only c)
  | case6 fresh n entered => exact absurd (hfresh n hn .refl) entered

/-- The walk from the root of a sound tree. -/
theorem walk_walks (ctx : Context) : ∃ rest, Walks t ctx (t.root :: rest) (t.walk ctx) :=
  S.walkFrom_walks _ _ S.root_mem fun _ hm _ => List.mem_map_of_mem hm

end Sound

/-! ### What a walk enters and records -/

namespace Walks
variable {t : Tree} {ctx : Context} {entered : List Node} {w : Walk}

theorem linked (h : Walks t ctx entered w) : entered.IsChain (t.Leads ctx) := by
  induction h with
  | arrived => exact .singleton _
  | dangling => exact .singleton _
  | branch decides taken _ ih => exact List.isChain_cons_cons.2 ⟨.branch _ decides taken, ih⟩
  | note passes goesOn only _ ih =>
    exact List.isChain_cons_cons.2 ⟨.note passes goesOn only, ih⟩

/-- The path holds the decisions of the nodes that are entered. -/
theorem path_eq (h : Walks t ctx entered w) : w.path = entered.filterMap (·.step? ctx) := by
  induction h with
  | arrived passes _ => simp [passes]
  | dangling decides _ => simp [decides]
  | branch decides _ _ ih => simp [decides, ih]
  | note passes _ _ _ ih => rw [ih]; simp [passes]

/-- A walk ends at a terminal, or at a node whose chosen branch has no child. -/
inductive Ends (t : Tree) (ctx : Context) (n : Node) : Ending → Prop where
  | arrived (ends : n.isTerminal = true) : Ends t ctx n (.arrived n)
  | dangling (s : PathStep) (decides : n.step? ctx = some s)
      (missing : t.childFor n.key s.branch = none) : Ends t ctx n (.dangling n s.branch)

theorem ends (h : Walks t ctx entered w) :
    ∃ n, entered.getLast? = some n ∧ Ends t ctx n w.ending := by
  induction h with
  | @arrived n _ ends => exact ⟨n, rfl, .arrived ends⟩
  | @dangling n s decides missing => exact ⟨n, rfl, .dangling s decides missing⟩
  | branch _ _ _ ih => rwa [List.getLast?_cons_cons]
  | note _ _ _ _ ih => rwa [List.getLast?_cons_cons]

theorem Ends.not_leads {n c : Node} {e : Ending} (h : Ends t ctx n e) : ¬ t.Leads ctx n c := by
  intro hlead
  cases h with
  | arrived ends =>
    cases hlead with
    | branch s decides _ => cases (Node.step?_of_terminal ends ctx).symm.trans decides
    | note _ goesOn _ => cases ends.symm.trans goesOn
  | dangling s decides missing =>
    cases hlead with
    | branch s' decides' taken =>
      cases decides.symm.trans decides'
      cases missing.symm.trans taken
    | note passes _ _ => cases decides.symm.trans passes

theorem Ends.unique {n : Node} {e e' : Ending} (h : Ends t ctx n e) (h' : Ends t ctx n e') :
    e = e' := by
  cases h with
  | arrived ends =>
    cases h' with
    | arrived _ => rfl
    | dangling s decides _ => cases (Node.step?_of_terminal ends ctx).symm.trans decides
  | dangling s decides _ =>
    cases h' with
    | arrived ends => cases (Node.step?_of_terminal ends ctx).symm.trans decides
    | dangling s' decides' _ =>
      cases decides.symm.trans decides'
      rfl

/-- Every trail is the beginning of the walk. -/
theorem trail_prefix {n : Node} {rest trail : List Node} (h : Walks t ctx (n :: rest) w)
    (htrail : (n :: trail).IsChain (t.Leads ctx)) : n :: trail <+: n :: rest := by
  induction trail generalizing n rest w with
  | nil => exact ⟨rest, rfl⟩
  | cons d trail ih =>
    obtain ⟨hlead, hchain⟩ := List.isChain_cons_cons.1 htrail
    cases h with
    | arrived _ ends => exact absurd hlead (Ends.arrived ends).not_leads
    | dangling decides missing => exact absurd hlead (Ends.dangling _ decides missing).not_leads
    | branch decides taken onward =>
      cases (Leads.branch _ decides taken).unique hlead
      exact (List.prefix_cons_inj n).2 (ih onward hchain)
    | note passes goesOn only onward =>
      cases (Leads.note passes goesOn only).unique hlead
      exact (List.prefix_cons_inj n).2 (ih onward hchain)

/-- Two walks from one node enter the same nodes, so they are the same. -/
theorem unique {n : Node} {rest rest' : List Node} {w' : Walk} (h : Walks t ctx (n :: rest) w)
    (h' : Walks t ctx (n :: rest') w') : w = w' := by
  have hentered : n :: rest = n :: rest' :=
    (h'.trail_prefix h.linked).eq_of_length_le (h.trail_prefix h'.linked).length_le
  have hpath : w.path = w'.path := by rw [h.path_eq, h'.path_eq, hentered]
  obtain ⟨m, hlast, hends⟩ := h.ends
  obtain ⟨m', hlast', hends'⟩ := h'.ends
  rw [hentered] at hlast
  cases hlast.symm.trans hlast'
  cases w
  cases w'
  exact congrArg₂ Walk.mk hpath (hends.unique hends')

/-- The walk ends where a chosen branch has no child. -/
theorem dangling_of_mem {n : Node} {s : PathStep} (h : Walks t ctx entered w) (hn : n ∈ entered)
    (decides : n.step? ctx = some s) (missing : t.childFor n.key s.branch = none) :
    w.ending = .dangling n s.branch := by
  induction h with
  | arrived passes _ =>
    cases List.mem_singleton.1 hn
    cases decides.symm.trans passes
  | dangling decides' _ =>
    cases List.mem_singleton.1 hn
    cases decides.symm.trans decides'
    rfl
  | branch decides' taken _ ih =>
    rcases List.mem_cons.1 hn with rfl | hn
    · cases decides.symm.trans decides'
      cases missing.symm.trans taken
    · exact ih hn
  | note passes _ _ _ ih =>
    rcases List.mem_cons.1 hn with rfl | hn
    · cases decides.symm.trans passes
    · exact ih hn

end Walks

end Lending.Tree
