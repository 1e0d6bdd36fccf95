import Lending.Policy.Source
import Lending.Proofs.Checks

/-! Policies in one source or in several.

Bundles merge like lists, but for the catalog, of which there is one at most: merging is
associative, it fails exactly where two catalogs meet, and then nothing is merged. A source is
bundled document by document, and its place in a source is nothing that a document is read by. So
where documents are cut into sources does not show in the bundle that they make. -/
namespace Lending.Bundle
variable {a b c m : Bundle} {xs ys documents : List Document}

/-! ### Merging -/

/-- The bundle that holds what two bundles hold, the catalog of the first before that of the
second. -/
def append (b c : Bundle) : Bundle where
  catalog := b.catalog.or c.catalog
  trees := b.trees ++ c.trees
  strategies := b.strategies ++ c.strategies
  assessments := b.assessments ++ c.assessments

/-- Two catalogs meet. -/
def Collide (b c : Bundle) : Prop :=
  b.catalog.isSome = true ∧ c.catalog.isSome = true

instance (b c : Bundle) : Decidable (b.Collide c) :=
  inferInstanceAs (Decidable (_ ∧ _))

theorem merge_eq (b c : Bundle) :
    b.merge c = if b.Collide c then .error .secondCatalog else .ok (b.append c) := by
  obtain ⟨catalog, trees, strategies, assessments⟩ := b
  obtain ⟨catalog', trees', strategies', assessments'⟩ := c
  cases catalog <;> cases catalog' <;> rfl

theorem merge_ok_iff : b.merge c = .ok m ↔ ¬ b.Collide c ∧ m = b.append c := by
  rw [merge_eq]
  split
  · simp [*]
  · simp [*, eq_comm]

theorem collide_append_left : (a.append b).Collide c ↔ a.Collide c ∨ b.Collide c := by
  simp only [Collide, append, Option.isSome_or, Bool.or_eq_true, or_and_right]

theorem collide_append_right : a.Collide (b.append c) ↔ a.Collide b ∨ a.Collide c := by
  simp only [Collide, append, Option.isSome_or, Bool.or_eq_true, and_or_left]

theorem append_assoc (a b c : Bundle) : (a.append b).append c = a.append (b.append c) := by
  simp only [append, Option.or_assoc, List.append_assoc]

theorem empty_append (b : Bundle) : empty.append b = b := rfl

theorem append_empty (b : Bundle) : b.append empty = b := by
  simp [append, empty]

theorem toList_catalog_append (h : ¬ b.Collide c) :
    (b.append c).catalog.toList = b.catalog.toList ++ c.catalog.toList := by
  obtain ⟨catalog, trees, strategies, assessments⟩ := b
  obtain ⟨catalog', trees', strategies', assessments'⟩ := c
  cases catalog with
  | none => rfl
  | some changes =>
    cases catalog' with
    | none => rfl
    | some changes' => exact absurd ⟨rfl, rfl⟩ h

theorem merge_empty (b : Bundle) : b.merge empty = .ok b := by
  rw [merge_ok_iff, append_empty]
  exact ⟨fun h => Bool.noConfusion h.2, rfl⟩

theorem empty_merge (b : Bundle) : empty.merge b = .ok b := by
  rw [merge_ok_iff, empty_append]
  exact ⟨fun h => Bool.noConfusion h.1, rfl⟩

/-- Of three bundles in a row either pair can be merged first. -/
theorem merge_assoc (a b c : Bundle) :
    (a.merge b >>= fun ab => ab.merge c) = (b.merge c >>= fun bc => a.merge bc) := by
  rw [merge_eq a b, merge_eq b c]
  by_cases hab : a.Collide b
  · by_cases hbc : b.Collide c
    · rw [if_pos hab, if_pos hbc]
      rfl
    · have h : a.Collide (b.append c) := collide_append_right.2 (.inl hab)
      rw [if_pos hab, if_neg hbc]
      show Except.error _ = a.merge (b.append c)
      rw [merge_eq, if_pos h]
  · by_cases hbc : b.Collide c
    · have h : (a.append b).Collide c := collide_append_left.2 (.inr hbc)
      rw [if_neg hab, if_pos hbc]
      show (a.append b).merge c = .error _
      rw [merge_eq, if_pos h]
    · rw [if_neg hab, if_neg hbc]
      show (a.append b).merge c = a.merge (b.append c)
      simp only [merge_eq, collide_append_left, collide_append_right, hab, hbc, false_or, or_false,
        append_assoc]

theorem merge_assoc_ok_iff : (∃ ab, a.merge b = .ok ab ∧ ab.merge c = .ok m) ↔
    ∃ bc, b.merge c = .ok bc ∧ a.merge bc = .ok m := by
  rw [← bind_ok_iff, ← bind_ok_iff, merge_assoc]

/-! ### Merging in place -/

/-- A second catalog is refused before anything is taken in. -/
theorem run_takeIn (b c : Bundle) : (takeIn c).run b =
    match b.merge c with
    | .ok m => .ok () m
    | .error e => .error e b := by
  obtain ⟨catalog, trees, strategies, assessments⟩ := b
  obtain ⟨catalog', trees', strategies', assessments'⟩ := c
  cases catalog <;> cases catalog' <;> rfl

/-- How bundles merge. -/
structure MergesSafely (a b c : Bundle) : Prop where
  assoc : (a.merge b >>= fun ab => ab.merge c) = (b.merge c >>= fun bc => a.merge bc)
  fails_iff : (∃ e, a.merge b = .error e) ↔ a.catalog.isSome = true ∧ b.catalog.isSome = true
  in_place : ∀ m, (takeIn b).run a = .ok () m ↔ a.merge b = .ok m
  /-- What is refused leaves the bundle as it was. -/
  unchanged : ∀ e a', (takeIn b).run a = .error e a' → a' = a

theorem mergesSafely (a b c : Bundle) : MergesSafely a b c := by
  refine ⟨merge_assoc a b c, ?_, fun m => ?_, fun e a' h => ?_⟩
  · rw [merge_eq]
    by_cases h : a.Collide b
    · rw [if_pos h]
      exact ⟨fun _ => h, fun _ => ⟨_, rfl⟩⟩
    · rw [if_neg h]
      exact ⟨fun ⟨_, he⟩ => (by cases he), fun hcollide => absurd hcollide h⟩
  · rw [run_takeIn]
    cases a.merge b <;> simp
  · rw [run_takeIn] at h
    cases hmerge : a.merge b with
    | ok m =>
      rw [hmerge] at h
      cases h
    | error e' =>
      rw [hmerge] at h
      cases h
      rfl

/-! ### Documents in a row -/

/-- What a document holds, wherever in a source it is. -/
def Holds (d : Document) (part : Bundle) : Prop :=
  ∀ place, (ofDocument place d).outcome = .ok part

/-- The place of a document is told where it is refused, and nowhere else. -/
theorem holds_iff {place : Nat} {d : Document} {part : Bundle} :
    (ofDocument place d).outcome = .ok part ↔ Holds d part := by
  refine ⟨fun h place' => ?_, fun h => h place⟩
  unfold ofDocument at h ⊢
  split at h <;> first | exact h | cases h

theorem addDocuments_cons_ok_iff {place : Nat} {d : Document} :
    (b.addDocuments place (d :: documents)).outcome = .ok m ↔ ∃ part, Holds d part ∧
      ∃ n, b.merge part = .ok n ∧ (n.addDocuments (place + 1) documents).outcome = .ok m := by
  rw [addDocuments, Noted.outcome_bind, bind_ok_iff]
  simp only [holds_iff, Noted.outcome_bind, bind_ok_iff]
  rfl

/-- Documents can be added to the second of two bundles before these are merged, in any place. -/
theorem merge_addDocuments_ok_iff (place place' : Nat) :
    (∃ ab, a.merge b = .ok ab ∧ (ab.addDocuments place documents).outcome = .ok m) ↔
      ∃ q, (b.addDocuments place' documents).outcome = .ok q ∧ a.merge q = .ok m := by
  induction documents generalizing b place place' with
  | nil =>
    show (∃ ab, a.merge b = .ok ab ∧ Except.ok ab = .ok m) ↔ ∃ q, Except.ok b = .ok q ∧ _
    simp
  | cons d rest ih =>
    simp only [addDocuments_cons_ok_iff]
    constructor
    · rintro ⟨ab, hab, part, hpart, n, hn, hm⟩
      obtain ⟨bpart, hbpart, hn⟩ := merge_assoc_ok_iff.1 ⟨ab, hab, hn⟩
      obtain ⟨q, hq, hm⟩ := (ih _ _).1 ⟨n, hn, hm⟩
      exact ⟨q, ⟨part, hpart, bpart, hbpart, hq⟩, hm⟩
    · rintro ⟨q, ⟨part, hpart, bpart, hbpart, hq⟩, hm⟩
      obtain ⟨n, hn, hm⟩ := (ih _ _).2 ⟨q, hq, hm⟩
      obtain ⟨ab, hab, hn⟩ := merge_assoc_ok_iff.2 ⟨bpart, hbpart, hn⟩
      exact ⟨ab, hab, part, hpart, n, hn, hm⟩

/-- To add documents to a bundle is to merge it with the bundle that they make. -/
theorem addDocuments_ok_iff {place : Nat} : (b.addDocuments place documents).outcome = .ok m ↔
    ∃ q, (ofDocuments documents).outcome = .ok q ∧ b.merge q = .ok m := by
  rw [ofDocuments, ← merge_addDocuments_ok_iff place]
  simp [merge_empty]

theorem ofDocuments_nil_ok_iff : (ofDocuments []).outcome = .ok m ↔ m = empty := by
  show Except.ok empty = .ok m ↔ m = empty
  rw [Except.ok.injEq, eq_comm]

theorem ofDocuments_cons_ok_iff {d : Document} : (ofDocuments (d :: documents)).outcome = .ok m ↔
    ∃ part, Holds d part ∧ ∃ q, (ofDocuments documents).outcome = .ok q ∧ part.merge q = .ok m := by
  rw [ofDocuments, addDocuments_cons_ok_iff]
  simp only [empty_merge, Except.ok.injEq, exists_eq_left', addDocuments_ok_iff]

/-- Documents in a row make what the first and the rest of them make, merged. -/
theorem ofDocuments_append_ok_iff : (ofDocuments (xs ++ ys)).outcome = .ok m ↔
    ∃ p q, (ofDocuments xs).outcome = .ok p ∧ (ofDocuments ys).outcome = .ok q ∧
      p.merge q = .ok m := by
  induction xs generalizing m with
  | nil => simp [ofDocuments_nil_ok_iff, empty_merge]
  | cons d rest ih =>
    rw [List.cons_append, ofDocuments_cons_ok_iff]
    simp only [ih, ofDocuments_cons_ok_iff]
    constructor
    · rintro ⟨part, hpart, n, ⟨p, q, hp, hq, hn⟩, hm⟩
      obtain ⟨pp, hpp, hm⟩ := merge_assoc_ok_iff.2 ⟨n, hn, hm⟩
      exact ⟨pp, q, ⟨part, hpart, p, hp, hpp⟩, hq, hm⟩
    · rintro ⟨pp, q, ⟨part, hpart, p, hp, hpp⟩, hq, hm⟩
      obtain ⟨n, hn, hm⟩ := merge_assoc_ok_iff.1 ⟨pp, hpp, hm⟩
      exact ⟨part, hpart, n, ⟨p, q, hp, hq, hn⟩, hm⟩

/-- The number of definitions in a bundle. -/
def size (b : Bundle) : Nat :=
  b.catalog.toList.length + b.trees.length + b.strategies.length + b.assessments.length

/-- A document holds one definition. -/
theorem Holds.size_eq {d : Document} {part : Bundle} (h : Holds d part) : part.size = 1 := by
  have hread := h 0
  unfold ofDocument at hread
  split at hread
  · rw [Noted.outcome_bind, bind_ok_iff] at hread
    obtain ⟨changes, _, hpart⟩ := hread
    cases hpart
    rfl
  · rw [Noted.outcome_bind, bind_ok_iff] at hread
    obtain ⟨t, _, hpart⟩ := hread
    cases hpart
    rfl
  · rw [Noted.outcome_bind, bind_ok_iff] at hread
    obtain ⟨s, _, hpart⟩ := hread
    cases hpart
    rfl
  · rw [Noted.outcome_bind, bind_ok_iff] at hread
    obtain ⟨a, _, hpart⟩ := hread
    cases hpart
    rfl
  · cases hread

/-- A bundle of what documents hold one by one, in their order. -/
structure InOrder (documents : List Document) (m : Bundle) (parts : List Bundle) : Prop where
  holds : List.Forall₂ Holds documents parts
  single : ∀ part ∈ parts, part.size = 1
  catalog : m.catalog.toList = parts.flatMap fun part => part.catalog.toList
  trees : m.trees = parts.flatMap Bundle.trees
  strategies : m.strategies = parts.flatMap Bundle.strategies
  assessments : m.assessments = parts.flatMap Bundle.assessments

theorem exists_inOrder (h : (ofDocuments documents).outcome = .ok m) :
    ∃ parts, InOrder documents m parts := by
  induction documents generalizing m with
  | nil =>
    rw [ofDocuments_nil_ok_iff] at h
    subst h
    exact ⟨[], .nil, List.forall_mem_nil _, rfl, rfl, rfl, rfl⟩
  | cons d rest ih =>
    obtain ⟨part, hpart, q, hq, hm⟩ := ofDocuments_cons_ok_iff.1 h
    obtain ⟨parts, order⟩ := ih hq
    obtain ⟨hcollide, rfl⟩ := merge_ok_iff.1 hm
    exact ⟨part :: parts,
      { holds := .cons hpart order.holds
        single := List.forall_mem_cons.2 ⟨hpart.size_eq, order.single⟩
        catalog := by rw [toList_catalog_append hcollide, order.catalog, List.flatMap_cons]
        trees := congrArg (part.trees ++ ·) order.trees
        strategies := congrArg (part.strategies ++ ·) order.strategies
        assessments := congrArg (part.assessments ++ ·) order.assessments }⟩

/-! ### Sources in a row -/

/-- The documents that a source holds, if it can be read. -/
def documentsOf? : Source → Option (List Document)
  | .text s => Policy.documents s
  | .documents ds => if ds.all Yaml.isWritable then some (ds.filter (!Document.isNull ·)) else none
  | .missing => none

/-- The documents that sources in a row hold, if all of them can be read. -/
def documentsIn? : List Source → Option (List Document)
  | [] => some []
  | s :: rest => (documentsOf? s).bind fun ds => (documentsIn? rest).map (ds ++ ·)

theorem ofSource_ok_iff {s : Source} : (ofSource s).outcome = .ok m ↔
    ∃ ds, documentsOf? s = some ds ∧ (ofDocuments ds).outcome = .ok m := by
  cases s with
  | text s =>
    rw [ofSource, Noted.outcome_mapError, mapError_ok_iff, ofText, documentsOf?]
    cases Policy.documents s <;> simp
  | documents ds =>
    rw [ofSource, Noted.outcome_mapError, mapError_ok_iff, ofWritten, documentsOf?]
    by_cases h : ds.all Yaml.isWritable = true
    · simp [h]
    · simp [h]
  | missing => simp [ofSource, documentsOf?]

theorem addSources_cons_ok_iff {s : Source} {rest : List Source} :
    (b.addSources (s :: rest)).outcome = .ok m ↔ ∃ ds, documentsOf? s = some ds ∧
      ∃ p, (ofDocuments ds).outcome = .ok p ∧ ∃ n, b.merge p = .ok n ∧
        (n.addSources rest).outcome = .ok m := by
  rw [addSources, Noted.outcome_bind, bind_ok_iff]
  simp only [ofSource_ok_iff, Noted.outcome_bind, bind_ok_iff, Noted.outcome_ofExcept,
    mapError_ok_iff]
  constructor
  · rintro ⟨p, ⟨ds, hds, hp⟩, hrest⟩
    exact ⟨ds, hds, p, hp, hrest⟩
  · rintro ⟨ds, hds, p, hp, hrest⟩
    exact ⟨p, ⟨ds, hds, hp⟩, hrest⟩

/-- Sources add the documents that they hold, as if one source held them all. -/
theorem addSources_ok_iff {sources : List Source} : (b.addSources sources).outcome = .ok m ↔
    ∃ ds, documentsIn? sources = some ds ∧
      ∃ q, (ofDocuments ds).outcome = .ok q ∧ b.merge q = .ok m := by
  induction sources generalizing b with
  | nil =>
    show Except.ok b = .ok m ↔ ∃ ds, some [] = some ds ∧ _
    simp [ofDocuments_nil_ok_iff, merge_empty]
  | cons s rest ih =>
    simp only [addSources_cons_ok_iff, ih, documentsIn?, Option.bind_eq_some_iff,
      Option.map_eq_some_iff]
    constructor
    · rintro ⟨ds, hds, p, hp, n, hn, es, hes, q, hq, hm⟩
      obtain ⟨pq, hpq, hm⟩ := merge_assoc_ok_iff.1 ⟨n, hn, hm⟩
      exact ⟨ds ++ es, ⟨ds, hds, es, hes, rfl⟩, pq,
        ofDocuments_append_ok_iff.2 ⟨p, q, hp, hq, hpq⟩, hm⟩
    · rintro ⟨_, ⟨ds, hds, es, hes, rfl⟩, pq, hpq, hm⟩
      obtain ⟨p, q, hp, hq, hpq⟩ := ofDocuments_append_ok_iff.1 hpq
      obtain ⟨n, hn, hm⟩ := merge_assoc_ok_iff.2 ⟨pq, hpq, hm⟩
      exact ⟨ds, hds, p, hp, n, hn, es, hes, q, hq, hm⟩

theorem ofSources_ok_iff {sources : List Source} : (ofSources sources).outcome = .ok m ↔
    ∃ ds, documentsIn? sources = some ds ∧ (ofDocuments ds).outcome = .ok m := by
  rw [ofSources, addSources_ok_iff]
  simp [empty_merge]

theorem documentsOf?_append (ds es : List Document) : documentsOf? (.documents (ds ++ es)) =
    (documentsOf? (.documents ds)).bind fun x => (documentsOf? (.documents es)).map (x ++ ·) := by
  simp only [documentsOf?, List.all_append, List.filter_append]
  cases ds.all Yaml.isWritable
  · rfl
  · cases es.all Yaml.isWritable <;> rfl

/-- Documents that are cut into sources are the same documents to read. -/
theorem documentsIn?_cut (cut : List (List Document)) :
    documentsIn? (cut.map .documents) = documentsIn? [.documents cut.flatten] := by
  have hone (s : Source) : documentsIn? [s] = documentsOf? s := by
    cases h : documentsOf? s <;> simp [documentsIn?, h]
  rw [hone]
  induction cut with
  | nil => rfl
  | cons ds rest ih => rw [List.map_cons, documentsIn?, ih, List.flatten_cons, documentsOf?_append]

/-- **How policies are cut into sources does not show.** Documents in a row make a bundle exactly if
the first of them make one, the rest make one and the two can be merged, and it is that one, in the
order of the documents; sources make what the documents in them make in a row, wherever they are
cut; and merging is safe. -/
theorem sources_compose (xs ys : List Document) (sources : List Source)
    (cut : List (List Document)) (a b c : Bundle) :
    (∀ m, (ofDocuments (xs ++ ys)).outcome = .ok m ↔ ∃ p q, (ofDocuments xs).outcome = .ok p ∧
        (ofDocuments ys).outcome = .ok q ∧ p.merge q = .ok m) ∧
      (∀ m, (ofDocuments xs).outcome = .ok m → ∃ parts, InOrder xs m parts) ∧
      (∀ m, (ofSources sources).outcome = .ok m ↔ ∃ ds, documentsIn? sources = some ds ∧
        (ofDocuments ds).outcome = .ok m) ∧
      (∀ m, (ofSources (cut.map .documents)).outcome = .ok m ↔
        (ofSources [.documents cut.flatten]).outcome = .ok m) ∧
      MergesSafely a b c := by
  refine ⟨fun _ => ofDocuments_append_ok_iff, fun _ => exists_inOrder, fun _ => ofSources_ok_iff,
    fun m => ?_, mergesSafely a b c⟩
  rw [ofSources_ok_iff, ofSources_ok_iff, documentsIn?_cut]

end Lending.Bundle
