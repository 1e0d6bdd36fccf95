import Lending.Proofs.Checks
import Lending.Proofs.Document
import Lending.Rule.Catalog
import Mathlib.Data.List.Duplicate
import Mathlib.Data.List.Nodup

/-! The rules in force.

A catalog is resolved by two loops that change a list in place: overrides change the rules that
they name, and custom rules take the place of the rule with their id or come last. `resolve_ok_iff`
is what the loops leave, as one equation: every standard rule as it is settled for its id, and after
them the custom rules with ids of their own. Whatever an id occurs in, a custom rule comes before an
override, and an override before the rule that it changes. -/
namespace Lending

/-! ### Ids that are repeated -/

theorem requireUnique_ok_iff {rules : List Rule} :
    requireUnique rules = .ok () ↔ (rules.map Rule.id).Nodup := by
  have hnew := Text.firstRepeat?_eq_none_iff [] (rules.map Rule.id)
  simp only [List.not_mem_nil, not_false_eq_true, implies_true, and_true] at hnew
  rw [requireUnique, ← hnew]
  cases Text.firstRepeat? [] (rules.map Rule.id) <;> simp

theorem Text.duplicate_of_firstRepeat? {seen texts : List String} {s : String}
    (h : firstRepeat? seen texts = some s) : s ∈ texts ∧ (s ∈ seen ∨ List.Duplicate s texts) := by
  induction texts generalizing seen with
  | nil => cases h
  | cons t rest ih =>
    by_cases ht : t ∈ seen
    · rw [firstRepeat?, if_pos ht] at h
      cases h
      exact ⟨List.mem_cons_self .., .inl ht⟩
    · rw [firstRepeat?, if_neg ht] at h
      obtain ⟨hmem, hseen | hrest⟩ := ih h
      · refine ⟨List.mem_cons_of_mem t hmem, ?_⟩
        rcases List.mem_cons.1 hseen with rfl | hseen
        · exact .inr hmem.duplicate_cons_self
        · exact .inl hseen
      · exact ⟨List.mem_cons_of_mem t hmem, .inr (hrest.duplicate_cons t)⟩

/-- The id that is refused is one that two rules have. -/
theorem requireUnique_error {rules : List Rule} {e : PolicyError}
    (h : requireUnique rules = .error e) :
    ∃ id, e = .duplicateRule id ∧ List.Duplicate id (rules.map Rule.id) := by
  rw [requireUnique] at h
  split at h
  · next id hrepeat =>
    cases h
    obtain ⟨_, hseen | hduplicate⟩ := Text.duplicate_of_firstRepeat? hrepeat
    · cases hseen
    · exact ⟨id, rfl, hduplicate⟩
  · cases h

/-! ### Overrides -/

/-- The rule that an override makes of another: what the override gives stands in it, and all else
is as it was. A threshold has no place in a rule with several comparisons. -/
structure RuleOverride.Makes (o : RuleOverride) (r r' : Rule) : Prop where
  id : r'.id = r.id
  name : r'.name = r.name
  description : r'.description = r.description
  isCustom : r'.isCustom = r.isCustom
  outcome : r'.outcome = o.outcome.getD r.outcome
  severity : r'.severity = o.severity.getD r.severity
  enabled : r'.enabled = o.enabled.getD r.enabled
  kept : o.threshold = none → r'.kind = r.kind
  stored : ∀ t c, o.threshold = some t → r.kind = .stored c →
    r'.kind = .stored { c with threshold := t }
  computed : ∀ t field op t₀, o.threshold = some t → r.kind = .computed field op t₀ →
    r'.kind = .computed field op t
  compound : r.isCompound = true → r'.kind = r.kind

theorem RuleOverride.makes_apply (o : RuleOverride) (r : Rule) : o.Makes r (o.apply r) where
  id := rfl
  name := rfl
  description := rfl
  isCustom := rfl
  outcome := rfl
  severity := rfl
  enabled := rfl
  kept h := by simp only [apply, h]
  stored t c h hkind := by simp only [apply, h, hkind, RuleKind.withThreshold]
  computed t field op t₀ h hkind := by simp only [apply, h, hkind, RuleKind.withThreshold]
  compound h := by
    obtain ⟨id, name, description, kind, outcome, severity, isCustom, enabled⟩ := r
    cases kind with
    | compound logic conditions =>
      cases ht : o.threshold <;> simp only [apply, ht, RuleKind.withThreshold]
    | _ => cases h

namespace Catalog
variable {standard custom rules : List Rule} {overrides : Dict RuleOverride}

/-- A rule with the override of its id, if there is one. -/
def overridden (overrides : Dict RuleOverride) (r : Rule) : Rule :=
  match overrides.get? r.id with
  | some o => o.apply r
  | none => r

/-- The custom rule in the place of a rule, if there is one with its id. -/
def replaced (custom : List Rule) (r : Rule) : Rule :=
  (custom.find? (·.id == r.id)).getD r

@[simp] theorem id_overridden (overrides : Dict RuleOverride) (r : Rule) :
    (overridden overrides r).id = r.id := by
  unfold overridden
  split <;> rfl

@[simp] theorem id_replaced (custom : List Rule) (r : Rule) : (replaced custom r).id = r.id := by
  unfold replaced
  cases hfind : custom.find? (·.id == r.id) with
  | none => rfl
  | some x =>
    have hid := List.find?_some hfind
    exact beq_iff_eq.1 hid

theorem ids_map {f : Rule → Rule} (hf : ∀ r, (f r).id = r.id) (rules : List Rule) :
    (rules.map f).map Rule.id = rules.map Rule.id := by
  rw [List.map_map]
  exact List.map_congr_left fun r _ => hf r

theorem find?_of_mem (h : (rules.map Rule.id).Nodup) {r : Rule} (hr : r ∈ rules) :
    rules.find? (·.id == r.id) = some r := by
  cases hfind : rules.find? (·.id == r.id) with
  | none => exact absurd (beq_self_eq_true r.id) (List.find?_eq_none.1 hfind r hr)
  | some x =>
    have hid := List.find?_some hfind
    rw [List.inj_on_of_nodup_map h (List.mem_of_find?_eq_some hfind) hr (beq_iff_eq.1 hid)]

theorem find?_of_not_mem {id : String} (h : id ∉ rules.map Rule.id) :
    rules.find? (·.id == id) = none :=
  List.find?_eq_none.2 fun r hr hid => h (List.mem_map.2 ⟨r, hr, beq_iff_eq.1 hid⟩)

theorem find?_map_of_id {f : Rule → Rule} (hf : ∀ r, (f r).id = r.id) (rules : List Rule)
    (id : String) : (rules.map f).find? (·.id == id) = (rules.find? (·.id == id)).map f := by
  rw [List.find?_map]
  simp only [Function.comp_def, hf]

/-- Overrides by distinct ids change each rule by the override of its id. -/
theorem foldl_modify (h : overrides.Sorted) (rules : List Rule) :
    overrides.foldl (fun rules o => modify rules o.1 o.2.apply) rules =
      rules.map (overridden overrides) := by
  induction overrides generalizing rules with
  | nil => exact (List.map_id' rules).symm
  | cons e rest ih =>
    obtain ⟨key, o⟩ := e
    obtain ⟨hkey, hrest⟩ := List.pairwise_cons.1 h
    have hnew : Dict.get? rest key = none := by
      refine Dict.get?_of_not_mem fun hmem => ?_
      obtain ⟨e, he, hfst⟩ := List.mem_map.1 hmem
      exact String.lt_irrefl key (hfst ▸ hkey e he)
    rw [List.foldl_cons, ih hrest, modify, List.map_map]
    refine List.map_congr_left fun r _ => ?_
    by_cases hr : r.id = key
    · have hid : (o.apply r).id = key := hr
      simp only [Function.comp_apply, overridden, hid, hnew, hr, Dict.get?_cons, if_true]
    · simp only [Function.comp_apply, if_neg hr, overridden, Dict.get?_cons, if_neg (Ne.symm hr)]

/-! ### Custom rules -/

theorem place_eq (rules : List Rule) (x : Rule) :
    place rules x = rules.map (fun r => if r.id = x.id then x else r) ++
      if x.id ∈ rules.map Rule.id then [] else [x] := by
  by_cases hx : x.id ∈ rules.map Rule.id
  · have hany : rules.any (·.id == x.id) = true := by
      obtain ⟨r, hr, hid⟩ := List.mem_map.1 hx
      exact List.any_eq_true.2 ⟨r, hr, beq_iff_eq.2 hid⟩
    rw [place, if_pos hany, if_pos hx, List.append_nil, modify]
  · have hne : ∀ r ∈ rules, r.id ≠ x.id := fun r hr hid => hx (hid ▸ List.mem_map_of_mem hr)
    have hany : ¬ rules.any (·.id == x.id) = true := by
      rw [List.any_eq_true]
      rintro ⟨r, hr, hid⟩
      exact hne r hr (beq_iff_eq.1 hid)
    have hsame : (rules.map fun r => if r.id = x.id then x else r) = rules :=
      (List.map_congr_left fun r hr => if_neg (hne r hr)).trans (List.map_id' rules)
    rw [place, if_neg hany, if_neg hx, hsame]

@[simp] theorem map_replaced_nil (rules : List Rule) : rules.map (replaced []) = rules :=
  List.map_id' rules

theorem replaced_cons (x : Rule) (rest : List Rule) (r : Rule) :
    replaced (x :: rest) r = if r.id = x.id then x else replaced rest r := by
  by_cases h : r.id = x.id
  · simp [replaced, h]
  · simp [replaced, h, Ne.symm h]

theorem replaced_of_not_mem {r : Rule} (h : r.id ∉ custom.map Rule.id) :
    replaced custom r = r := by
  rw [replaced, find?_of_not_mem h, Option.getD_none]

/-- Custom rules with distinct ids take the places of the rules with their ids, and the others come
last. -/
theorem foldl_place (h : (custom.map Rule.id).Nodup) (rules : List Rule) :
    custom.foldl place rules =
      rules.map (replaced custom) ++ custom.filter (·.id ∉ rules.map Rule.id) := by
  induction custom generalizing rules with
  | nil => simp
  | cons x rest ih =>
    obtain ⟨hx, hrest⟩ := List.nodup_cons.1 h
    -- What comes after `x` has other ids and leaves it where it is.
    have hchanged : (rules.map fun r => if r.id = x.id then x else r).map (replaced rest) =
        rules.map (replaced (x :: rest)) := by
      rw [List.map_map]
      refine List.map_congr_left fun r _ => ?_
      rw [Function.comp_apply, replaced_cons]
      split
      · exact replaced_of_not_mem hx
      · rfl
    have hids : (place rules x).map Rule.id =
        rules.map Rule.id ++ if x.id ∈ rules.map Rule.id then [] else [x.id] := by
      rw [place_eq, List.map_append, ids_map fun r => by split <;> simp [*]]
      split <;> rfl
    have hlater : rest.filter (·.id ∉ (place rules x).map Rule.id) =
        rest.filter (·.id ∉ rules.map Rule.id) := by
      refine List.filter_congr fun y hy => ?_
      have hne : y.id ≠ x.id := fun hid => hx (hid ▸ List.mem_map_of_mem hy)
      simp only [hids, List.mem_append]
      split <;> simp [hne]
    rw [List.foldl_cons, ih hrest, hlater, place_eq, List.map_append, hchanged, List.append_assoc]
    by_cases hmem : x.id ∈ rules.map Rule.id
    · rw [if_pos hmem, List.filter_cons_of_neg (by simpa using hmem)]
      rfl
    · rw [if_neg hmem, List.filter_cons_of_pos (by simpa using hmem), List.map_singleton,
        replaced_of_not_mem hx]
      rfl

/-! ### Resolution -/

/-- A standard rule as it is in force: a custom rule comes before an override. -/
def settled (overrides : Dict RuleOverride) (custom : List Rule) (r : Rule) : Rule :=
  replaced custom (overridden overrides r)

@[simp] theorem id_settled (overrides : Dict RuleOverride) (custom : List Rule) (r : Rule) :
    (settled overrides custom r).id = r.id := by
  rw [settled, id_replaced, id_overridden]

/-- The standard rules, and after them the custom rules with ids of their own. -/
def inForce (standard : List Rule) (overrides : Dict RuleOverride) (custom : List Rule) :
    List Rule :=
  standard.map (settled overrides custom) ++ custom.filter (·.id ∉ standard.map Rule.id)

/-- What the two loops leave, if ids are distinct. -/
theorem resolve_eq (h : overrides.Sorted) : resolve standard overrides custom = (do
    requireUnique standard
    requireUnique custom
    return ⟨inForce standard overrides custom⟩) := by
  rw [resolve]
  cases hcustom : requireUnique custom with
  | error e => rfl
  | ok u =>
    have hids : (custom.map Rule.id).Nodup := requireUnique_ok_iff.1 hcustom
    have hplaced : custom.foldl place (standard.map (overridden overrides)) =
        inForce standard overrides custom := by
      rw [foldl_place hids, ids_map (id_overridden overrides), List.map_map]
      rfl
    rw [foldl_modify h, ← hplaced]

/-- What resolution checks, and what it leaves. -/
theorem resolve_ok_iff (h : overrides.Sorted) {c : Catalog} :
    resolve standard overrides custom = .ok c ↔ (standard.map Rule.id).Nodup ∧
      (custom.map Rule.id).Nodup ∧ c = ⟨inForce standard overrides custom⟩ := by
  rw [resolve_eq h, then_ok_iff, then_ok_iff, requireUnique_ok_iff, requireUnique_ok_iff]
  refine and_congr_right fun _ => and_congr_right fun _ => ?_
  show Except.ok _ = Except.ok c ↔ _
  rw [Except.ok.injEq]
  exact eq_comm

/-- Nothing but a repeated id is refused. -/
theorem resolve_error {e : PolicyError} (h : resolve standard overrides custom = .error e) :
    ∃ id, e = .duplicateRule id ∧
      (List.Duplicate id (standard.map Rule.id) ∨ List.Duplicate id (custom.map Rule.id)) := by
  rw [resolve] at h
  cases hstandard : requireUnique standard with
  | error e' =>
    rw [hstandard] at h
    cases h
    obtain ⟨id, rfl, hid⟩ := requireUnique_error hstandard
    exact ⟨id, rfl, .inl hid⟩
  | ok u =>
    rw [hstandard] at h
    cases hcustom : requireUnique custom with
    | error e' =>
      rw [hcustom] at h
      cases h
      obtain ⟨id, rfl, hid⟩ := requireUnique_error hcustom
      exact ⟨id, rfl, .inr hid⟩
    | ok u =>
      rw [hcustom] at h
      cases h

theorem ids_inForce (standard : List Rule) (overrides : Dict RuleOverride) (custom : List Rule) :
    (inForce standard overrides custom).map Rule.id = standard.map Rule.id ++
      (custom.map Rule.id).filter (· ∉ standard.map Rule.id) := by
  rw [inForce, List.map_append, ids_map (id_settled overrides custom), List.filter_map]
  rfl

theorem nodup_inForce (hstandard : (standard.map Rule.id).Nodup)
    (hcustom : (custom.map Rule.id).Nodup) (overrides : Dict RuleOverride) :
    ((inForce standard overrides custom).map Rule.id).Nodup := by
  rw [ids_inForce, List.nodup_append]
  refine ⟨hstandard, hcustom.filter _, fun id hid id' hid' heq => ?_⟩
  have hnew := (List.mem_filter.1 hid').2
  exact of_decide_eq_true hnew (heq ▸ hid)

/-- The rule in force under an id: a custom rule if there is one, else the standard rule with its
override. -/
def ruleFor? (standard : List Rule) (overrides : Dict RuleOverride) (custom : List Rule)
    (id : String) : Option Rule :=
  (custom.find? (·.id == id)).or ((standard.find? (·.id == id)).map (overridden overrides))

theorem find?_inForce (standard : List Rule) (overrides : Dict RuleOverride) (custom : List Rule)
    (id : String) :
    (inForce standard overrides custom).find? (·.id == id) =
      ruleFor? standard overrides custom id := by
  rw [inForce, List.find?_append, find?_map_of_id (id_settled overrides custom), ruleFor?]
  cases hstandard : standard.find? (·.id == id) with
  | some r =>
    have hid := List.find?_some hstandard
    have hid : r.id = id := beq_iff_eq.1 hid
    rw [Option.map_some, Option.some_or, settled, replaced, id_overridden, hid, Option.map_some]
    cases custom.find? (·.id == id) <;> rfl
  | none =>
    have hnew : id ∉ standard.map Rule.id := by
      intro hmem
      obtain ⟨r, hr, hid⟩ := List.mem_map.1 hmem
      exact List.find?_eq_none.1 hstandard r hr (beq_iff_eq.2 hid)
    rw [Option.map_none, Option.none_or, Option.map_none, Option.or_none, List.find?_filter]
    congr 1
    funext r
    by_cases hid : r.id = id
    · simp [hid, hnew]
    · simp [hid]

/-! ### Resolving again -/

theorem replaced_of_mem (hcustom : (custom.map Rule.id).Nodup) {x : Rule} (hx : x ∈ custom) :
    replaced custom x = x := by
  rw [replaced, find?_of_mem hcustom hx, Option.getD_some]

theorem replaced_replaced (hcustom : (custom.map Rule.id).Nodup) (r : Rule) :
    replaced custom (replaced custom r) = replaced custom r := by
  cases hfind : custom.find? (·.id == r.id) with
  | none =>
    have hself : replaced custom r = r := by rw [replaced, hfind, Option.getD_none]
    rw [hself, hself]
  | some x =>
    have hx : replaced custom r = x := by rw [replaced, hfind, Option.getD_some]
    rw [hx, replaced_of_mem hcustom (List.mem_of_find?_eq_some hfind)]

/-- The rules in force stay in force under the same custom rules. -/
theorem inForce_inForce (hcustom : (custom.map Rule.id).Nodup) (standard : List Rule)
    (overrides : Dict RuleOverride) :
    inForce (inForce standard overrides custom) [] custom = inForce standard overrides custom := by
  have hkept : ∀ r ∈ inForce standard overrides custom, settled [] custom r = r := by
    intro r hr
    rcases List.mem_append.1 hr with hr | hr
    · obtain ⟨r, _, rfl⟩ := List.mem_map.1 hr
      exact replaced_replaced hcustom _
    · exact replaced_of_mem hcustom (List.mem_filter.1 hr).1
  have hnone : custom.filter (·.id ∉ (inForce standard overrides custom).map Rule.id) = [] := by
    refine List.filter_eq_nil_iff.2 fun x hx => ?_
    have hmem : x.id ∈ (inForce standard overrides custom).map Rule.id := by
      rw [ids_inForce, List.mem_append, List.mem_filter, decide_eq_true_iff]
      by_cases hold : x.id ∈ standard.map Rule.id
      · exact .inl hold
      · exact .inr ⟨List.mem_map_of_mem hx, hold⟩
    simpa using hmem
  rw [inForce, hnone, List.append_nil]
  exact (List.map_congr_left hkept).trans (List.map_id' _)

/-- Overrides of rules that are not there change nothing. -/
theorem inForce_filter (standard : List Rule) (overrides : Dict RuleOverride)
    (custom : List Rule) :
    inForce standard (overrides.filter (·.1 ∈ standard.map Rule.id)) custom =
      inForce standard overrides custom := by
  have hget (d : Dict RuleOverride) {id : String} (hid : id ∈ standard.map Rule.id) :
      Dict.get? (d.filter (·.1 ∈ standard.map Rule.id)) id = d.get? id := by
    induction d with
    | nil => rfl
    | cons e rest ih =>
      obtain ⟨key, o⟩ := e
      by_cases hkey : key ∈ standard.map Rule.id
      · rw [List.filter_cons_of_pos (by simpa using hkey), Dict.get?_cons, Dict.get?_cons, ih]
      · have hne : key ≠ id := fun heq => hkey (heq ▸ hid)
        rw [List.filter_cons_of_neg (by simpa using hkey), Dict.get?_cons, if_neg hne, ih]
  rw [inForce, inForce]
  congr 1
  refine List.map_congr_left fun r hr => ?_
  rw [settled, settled, overridden, overridden, hget overrides (List.mem_map_of_mem hr)]

/-! ### Resolution as a whole -/

/-- What a catalog holds that is resolved from standard rules, overrides and custom rules. -/
structure Resolves (standard : List Rule) (overrides : Dict RuleOverride) (custom : List Rule)
    (c : Catalog) : Prop where
  ids : c.rules.map Rule.id =
    standard.map Rule.id ++ (custom.map Rule.id).filter (· ∉ standard.map Rule.id)
  unique : (c.rules.map Rule.id).Nodup
  ofCustom : ∀ r ∈ custom, c.get? r.id = some r
  ofOverride : ∀ r ∈ standard, r.id ∉ custom.map Rule.id →
    ∀ o, overrides.get? r.id = some o → ∃ r', c.get? r.id = some r' ∧ o.Makes r r'
  ofStandard : ∀ r ∈ standard, r.id ∉ custom.map Rule.id →
    overrides.get? r.id = none → c.get? r.id = some r
  /-- Resolving what is in force, with the same custom rules, changes nothing. -/
  again : resolve c.rules [] custom = .ok c

theorem resolves_inForce (hstandard : (standard.map Rule.id).Nodup)
    (hcustom : (custom.map Rule.id).Nodup) (overrides : Dict RuleOverride) :
    Resolves standard overrides custom ⟨inForce standard overrides custom⟩ where
  ids := ids_inForce standard overrides custom
  unique := nodup_inForce hstandard hcustom overrides
  ofCustom r hr := by
    rw [get?, find?_inForce, ruleFor?, find?_of_mem hcustom hr, Option.some_or]
  ofOverride r hr hid o ho := by
    refine ⟨o.apply r, ?_, o.makes_apply r⟩
    rw [get?, find?_inForce, ruleFor?, find?_of_not_mem hid, Option.none_or,
      find?_of_mem hstandard hr, Option.map_some, overridden, ho]
  ofStandard r hr hid hnone := by
    rw [get?, find?_inForce, ruleFor?, find?_of_not_mem hid, Option.none_or,
      find?_of_mem hstandard hr, Option.map_some, overridden, hnone]
  again := (resolve_ok_iff List.Pairwise.nil).2
    ⟨nodup_inForce hstandard hcustom overrides, hcustom, by rw [inForce_inForce hcustom]⟩

/-- **Resolution is settled id by id.** It refuses repeated ids and nothing else. What it makes of
other lists holds the standard ids in their order and after them the new ones of the custom rules,
and under each id the custom rule, else the standard rule with its override, else the standard rule;
to resolve it again changes nothing. Overrides of rules that are not there have no part in it. -/
theorem resolution_settles (standard custom : List Rule) {overrides : Dict RuleOverride}
    (h : overrides.Sorted) :
    ((∃ id, resolve standard overrides custom = .error (.duplicateRule id)) ↔
        ¬ (standard.map Rule.id).Nodup ∨ ¬ (custom.map Rule.id).Nodup) ∧
      (∀ e, resolve standard overrides custom = .error e → ∃ id, e = .duplicateRule id ∧
        (List.Duplicate id (standard.map Rule.id) ∨ List.Duplicate id (custom.map Rule.id))) ∧
      (∀ c, resolve standard overrides custom = .ok c →
        Resolves standard overrides custom c) ∧
      resolve standard (overrides.filter (·.1 ∈ standard.map Rule.id)) custom =
        resolve standard overrides custom := by
  refine ⟨⟨?refused, ?repeated⟩, fun e => resolve_error, fun c hc => ?resolved, ?unknown⟩
  case refused =>
    rintro ⟨id, hid⟩
    by_contra hunique
    obtain ⟨hstandard, hcustom⟩ := not_or.1 hunique
    have hok := (resolve_ok_iff h).2 ⟨not_not.1 hstandard, not_not.1 hcustom, rfl⟩
    rw [hid] at hok
    cases hok
  case repeated =>
    intro hrepeats
    cases hresolve : resolve standard overrides custom with
    | error e =>
      obtain ⟨id, rfl, _⟩ := resolve_error hresolve
      exact ⟨id, rfl⟩
    | ok c =>
      obtain ⟨hstandard, hcustom, _⟩ := (resolve_ok_iff h).1 hresolve
      exact absurd hrepeats (not_or.2 ⟨not_not_intro hstandard, not_not_intro hcustom⟩)
  case resolved =>
    obtain ⟨hstandard, hcustom, rfl⟩ := (resolve_ok_iff h).1 hc
    exact resolves_inForce hstandard hcustom overrides
  case unknown => rw [resolve_eq (h.filter _), resolve_eq h, inForce_filter]

/-! ### Lists that overlap -/

/-- A comparison of one attribute, and a rule with several. -/
def youngBorrowers : List Rule :=
  [ .stored "min_age" "Minimum age" "age" .gte (.number 18) .hard,
    .ofKind "thin_file" "Thin file" (.compound .or
      [⟨"age", .gte, .number 21⟩, ⟨"open_credit_lines", .gt, .number 2⟩]) .refer,
    .stored "max_dti" "Maximum debt-to-income ratio" "dti_ratio" .lte (.number 0.45) .hard ]

/-- One for each standard rule, and one that names no rule. -/
def campaignOverrides : Dict RuleOverride :=
  [ ("max_dti", { RuleOverride.empty with threshold := some (.number 0.5) }),
    ("min_age", { RuleOverride.empty with enabled := some false }),
    ("no_such_rule", { RuleOverride.empty with outcome := some .refer }),
    ("thin_file", { RuleOverride.empty with
      threshold := some (.number 1)
      severity := some .hard }) ]

/-- A rule in the place of a standard one, and a new one. -/
def campaignRules : List Rule :=
  [ .stored "min_age" "Campaign age" "age" .gte (.number 21) .refer,
    .stored "income_gate" "Income gate" "monthly_income" .gte (.number 500) .hard ]

/-- Standard rules that are overridden, replaced, and overridden and replaced. -/
theorem resolution_settles_campaign : campaignOverrides.Sorted ∧
    ∃ c, resolve youngBorrowers campaignOverrides campaignRules = .ok c ∧
      c.rules.map Rule.id = ["min_age", "thin_file", "max_dti", "income_gate"] ∧
      (c.get? "min_age").map Rule.name = some "Campaign age" ∧
      (c.get? "thin_file").map Rule.severity = some .hard ∧
      resolve c.rules [] campaignRules = .ok c := by
  have hsorted : campaignOverrides.Sorted := by
    unfold Dict.Sorted
    decide
  obtain ⟨-, -, hresolves, -⟩ := resolution_settles youngBorrowers campaignRules hsorted
  have hok := (resolve_ok_iff hsorted).2
    ⟨(by decide : (youngBorrowers.map Rule.id).Nodup),
      (by decide : (campaignRules.map Rule.id).Nodup), rfl⟩
  have hc := hresolves _ hok
  exact ⟨hsorted, _, hok, hc.ids, rfl, rfl, hc.again⟩

end Catalog

end Lending
