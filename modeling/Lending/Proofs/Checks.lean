import Lending.Tree.Arena
import Mathlib.Data.List.Forall2

/-! Checks that succeed.

A check is an `Except` computation that stops at its first fault. Where a sequence of checks
succeeds each of them did: both halves of a bind, every member of a loop, and what was
required holds. A fold that succeeds keeps what each of its steps keeps. -/
namespace Lending
variable {ε ε' α β : Type}

theorem bind_ok_iff {x : Except ε α} {f : α → Except ε β} {b : β} :
    x >>= f = .ok b ↔ ∃ a, x = .ok a ∧ f a = .ok b := by
  cases x with
  | error e => simp [bind, Except.bind]
  | ok a => simp [bind, Except.bind]

/-- One check after the other. -/
theorem then_ok_iff {x : Except ε Unit} {y : Except ε β} {b : β} :
    (x >>= fun _ => y) = .ok b ↔ x = .ok () ∧ y = .ok b := by
  rw [bind_ok_iff]
  constructor
  · rintro ⟨⟨⟩, hx, hy⟩
    exact ⟨hx, hy⟩
  · rintro ⟨hx, hy⟩
    exact ⟨(), hx, hy⟩

theorem mapError_ok_iff {x : Except ε α} {a : α} (f : ε → ε') :
    x.mapError f = .ok a ↔ x = .ok a := by
  cases x with
  | error e =>
    constructor
    · intro h
      cases h
    · intro h
      cases h
  | ok b =>
    constructor
    · intro h
      cases h
      rfl
    · intro h
      cases h
      rfl

theorem mapError_error_iff {x : Except ε α} {e' : ε'} (f : ε → ε') :
    x.mapError f = .error e' ↔ ∃ e, x = .error e ∧ f e = e' := by
  cases x with
  | error e => simp [Except.mapError]
  | ok a => simp [Except.mapError]

theorem map_ok_iff {f : α → β} {x : Except ε α} {b : β} :
    x.map f = .ok b ↔ ∃ a, x = .ok a ∧ f a = b := by
  cases x with
  | error e => simp [Except.map]
  | ok a => simp [Except.map]

theorem forM_ok_iff {f : α → Except ε Unit} {items : List α} :
    items.forM f = .ok () ↔ ∀ a ∈ items, f a = .ok () := by
  induction items with
  | nil => simp [List.forM, pure, Except.pure]
  | cons a rest ih =>
    show (f a >>= fun _ => rest.forM f) = .ok () ↔ _
    rw [then_ok_iff, ih, List.forall_mem_cons]

/-- A list is read by reading each of its items. -/
theorem mapM_ok_iff {f : α → Except ε β} {items : List α} {results : List β} :
    items.mapM f = .ok results ↔ List.Forall₂ (fun a b => f a = .ok b) items results := by
  induction items generalizing results with
  | nil => cases results <;> simp [pure, Except.pure]
  | cons a rest ih =>
    rw [List.mapM_cons, bind_ok_iff]
    constructor
    · rintro ⟨b, hb, h⟩
      obtain ⟨bs, hbs, h⟩ := bind_ok_iff.1 h
      cases h
      exact .cons hb (ih.1 hbs)
    · intro h
      cases h with
      | cons hb hbs => exact ⟨_, hb, bind_ok_iff.2 ⟨_, ih.2 hbs, rfl⟩⟩

/-- Reading a list stops at the first item that is refused. -/
theorem mapM_error_iff {f : α → Except ε β} {items : List α} {e : ε} :
    items.mapM f = .error e ↔ ∃ before a after, items = before ++ a :: after ∧
      (∀ b ∈ before, ∃ result, f b = .ok result) ∧ f a = .error e := by
  induction items with
  | nil => simp [pure, Except.pure]
  | cons a rest ih =>
    rw [List.mapM_cons]
    cases hfirst : f a with
    | error e' =>
      -- The first item is refused, so no other can be the first that is.
      constructor
      · rintro ⟨⟩
        exact ⟨[], a, rest, rfl, List.forall_mem_nil _, hfirst⟩
      · rintro ⟨before, a', after, hsplit, hbefore, ha'⟩
        cases before with
        | nil =>
          cases hsplit
          cases hfirst.symm.trans ha'
          rfl
        | cons b before =>
          cases hsplit
          obtain ⟨result, hb⟩ := hbefore a (List.mem_cons_self ..)
          cases hfirst.symm.trans hb
    | ok result =>
      have hrest : (Except.ok result >>= fun r => rest.mapM f >>= fun rs => pure (r :: rs)) =
          (.error e : Except ε (List β)) ↔ rest.mapM f = .error e := by
        cases rest.mapM f <;> simp [bind, Except.bind, pure, Except.pure]
      rw [hrest, ih]
      constructor
      · rintro ⟨before, a', after, rfl, hbefore, ha'⟩
        exact ⟨a :: before, a', after, rfl, List.forall_mem_cons.2 ⟨⟨result, hfirst⟩, hbefore⟩, ha'⟩
      · rintro ⟨before, a', after, hsplit, hbefore, ha'⟩
        cases before with
        | nil =>
          cases hsplit
          cases hfirst.symm.trans ha'
        | cons b before =>
          cases hsplit
          exact ⟨before, a', after, rfl, (List.forall_mem_cons.1 hbefore).2, ha'⟩

/-- Every result was read from one of the items. -/
theorem exists_of_mapM_ok {f : α → Except ε β} {items : List α} {results : List β}
    (h : items.mapM f = .ok results) : ∀ b ∈ results, ∃ a ∈ items, f a = .ok b := by
  have hread := mapM_ok_iff.1 h
  clear h
  induction hread with
  | nil => exact List.forall_mem_nil _
  | @cons a b items results hab _ ih =>
    refine List.forall_mem_cons.2 ⟨⟨a, List.mem_cons_self .., hab⟩, fun b' hb' => ?_⟩
    obtain ⟨a', ha', hread⟩ := ih b' hb'
    exact ⟨a', List.mem_cons_of_mem a ha', hread⟩

/-- What is read back item by item is read back as a list. -/
theorem mapM_map_ok {f : α → Except ε β} {g : β → α} {items : List β}
    (h : ∀ b ∈ items, f (g b) = .ok b) : (items.map g).mapM f = .ok items := by
  rw [mapM_ok_iff, List.forall₂_map_left_iff, List.forall₂_same]
  exact h

theorem outcome_forEach (f : α → Noted ε β) (items : List α) :
    (Noted.forEach f items).outcome = items.mapM fun a => (f a).outcome := by
  induction items with
  | nil => rfl
  | cons a rest ih =>
    rw [List.mapM_cons, ← ih, Noted.forEach]
    simp only [Noted.outcome_bind, Noted.outcome_pure]
    rfl

/-- What is read back item by item, without a warning, is read back so as a list. -/
theorem forEach_map_pure {f : α → Noted ε β} {g : β → α} {items : List β}
    (h : ∀ b ∈ items, f (g b) = pure b) : Noted.forEach f (items.map g) = pure items := by
  induction items with
  | nil => rfl
  | cons b rest ih =>
    obtain ⟨hb, hrest⟩ := List.forall_mem_cons.1 h
    rw [List.map_cons, Noted.forEach, hb, ih hrest]
    rfl

/-- What every step of a fold keeps, a fold that succeeds keeps. -/
theorem foldlM_keeps {f : β → α → Except ε β} (P : β → Prop) {items : List α} {b b' : β}
    (hstep : ∀ c, ∀ a ∈ items, ∀ c', P c → f c a = .ok c' → P c') (hb : P b)
    (h : items.foldlM f b = .ok b') : P b' := by
  induction items generalizing b with
  | nil =>
    cases h
    exact hb
  | cons a rest ih =>
    rw [List.foldlM_cons, bind_ok_iff] at h
    obtain ⟨c, hc, hrest⟩ := h
    have hPc := hstep b a (List.mem_cons_self ..) c hb hc
    exact ih (fun d x hx => hstep d x (List.mem_cons_of_mem a hx)) hPc hrest

theorem require_ok_iff {ok : Bool} {e : PolicyError} : Tree.require ok e = .ok () ↔ ok = true := by
  cases ok <;> simp [Tree.require]

end Lending
