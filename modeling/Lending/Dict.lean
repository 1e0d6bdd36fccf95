/-! Dictionaries in key order.

A dictionary is a list of entries with strictly increasing keys, so its entries can be shown
and compared as they stand. `insert` keeps the order and replaces the entry of a key that is
already there. -/
namespace Lending

/-- Entries under distinct texts, in the order of the texts. -/
abbrev Dict (α : Type) := List (String × α)

namespace Dict
variable {α β : Type}

/-- The keys strictly increase. -/
def Sorted (d : Dict α) : Prop :=
  d.Pairwise fun a b => a.1 < b.1

def keys (d : Dict α) : List String :=
  d.map Prod.fst

def values (d : Dict α) : List α :=
  d.map Prod.snd

def get? (d : Dict α) (key : String) : Option α :=
  match d with
  | [] => none
  | (k, v) :: rest => if k = key then some v else get? rest key

def contains (d : Dict α) (key : String) : Bool :=
  (d.get? key).isSome

def insert (d : Dict α) (key : String) (value : α) : Dict α :=
  match d with
  | [] => [(key, value)]
  | (k, v) :: rest =>
    if key < k then (key, value) :: (k, v) :: rest
    else if key = k then (key, value) :: rest
    else (k, v) :: insert rest key value

/-- The entries put in one after the other; the last one of a key stays. -/
def ofList (entries : List (String × α)) : Dict α :=
  entries.foldl (fun d e => d.insert e.1 e.2) []

/-- Texts in order, each once. -/
def sortedKeys (texts : List String) : List String :=
  (ofList (texts.map (·, ()))).keys

@[simp] theorem get?_nil (key : String) : get? ([] : Dict α) key = none := rfl

@[simp] theorem get?_insert_self (d : Dict α) (key : String) (value : α) :
    (d.insert key value).get? key = some value := by
  induction d with
  | nil => simp [insert, get?]
  | cons e rest ih =>
    obtain ⟨k, v⟩ := e
    by_cases hlt : key < k
    · simp [insert, get?, hlt]
    · by_cases heq : key = k
      · simp [insert, get?, heq]
      · simp [insert, get?, hlt, heq, Ne.symm heq, ih]

theorem get?_insert_of_ne (d : Dict α) {key other : String} (h : other ≠ key) (value : α) :
    (d.insert key value).get? other = d.get? other := by
  induction d with
  | nil => simp [insert, get?, Ne.symm h]
  | cons e rest ih =>
    obtain ⟨k, v⟩ := e
    by_cases hlt : key < k
    · simp [insert, get?, hlt, Ne.symm h]
    · by_cases heq : key = k
      · subst heq
        simp [insert, get?, Ne.symm h]
      · simp only [insert, hlt, heq, if_false, get?, ih]

theorem mem_keys_insert (d : Dict α) (key : String) (value : α) {k : String} :
    k ∈ (d.insert key value).keys ↔ k = key ∨ k ∈ d.keys := by
  induction d with
  | nil => simp [insert, keys]
  | cons e rest ih =>
    obtain ⟨k', v'⟩ := e
    by_cases hlt : key < k'
    · simp [insert, hlt, keys]
    · by_cases heq : key = k'
      · subst heq
        rw [insert, if_neg hlt, if_pos rfl]
        simp [keys]
      · simp only [insert, hlt, heq, if_false, keys, List.map_cons, List.mem_cons] at ih ⊢
        rw [ih]
        exact or_left_comm

theorem get?_of_not_mem {d : Dict α} {key : String} (h : key ∉ d.keys) : d.get? key = none := by
  induction d with
  | nil => rfl
  | cons e rest ih =>
    obtain ⟨k, v⟩ := e
    obtain ⟨hk, hrest⟩ := not_or.1 (mt List.mem_cons.2 h)
    rw [get?, if_neg (Ne.symm hk)]
    exact ih hrest

/-- Putting entries in loses no key and adds none. -/
theorem mem_keys_ofList {entries : List (String × α)} {k : String} :
    k ∈ (ofList entries).keys ↔ k ∈ entries.map Prod.fst := by
  have aux : ∀ (l : List (String × α)) (d : Dict α),
      k ∈ (l.foldl (fun d e => d.insert e.1 e.2) d).keys ↔ k ∈ d.keys ∨ k ∈ l.map Prod.fst := by
    intro l
    induction l with
    | nil => simp
    | cons e rest ih =>
      intro d
      rw [List.foldl_cons, ih, mem_keys_insert, List.map_cons, List.mem_cons, or_assoc, or_left_comm]
  rw [ofList, aux]
  simp [keys]

/-- Ordering texts loses none and adds none. -/
theorem mem_sortedKeys {texts : List String} {k : String} : k ∈ sortedKeys texts ↔ k ∈ texts := by
  rw [sortedKeys, mem_keys_ofList, List.map_map]
  exact iff_of_eq (congrArg (k ∈ ·) (List.map_id texts))

/-- What holds of all values holds after one more has been put in. -/
theorem forall_get?_insert {P : α → Prop} {d : Dict α} (h : ∀ k v, d.get? k = some v → P v)
    (key : String) {value : α} (hvalue : P value) :
    ∀ k v, (d.insert key value).get? k = some v → P v := by
  intro k v hv
  by_cases hk : k = key
  · rw [hk, get?_insert_self] at hv
    exact Option.some.inj hv ▸ hvalue
  · rw [get?_insert_of_ne d hk] at hv
    exact h k v hv

/-- Of entries under distinct keys none gets lost. -/
theorem get?_ofList {entries : List (String × α)} (h : (entries.map Prod.fst).Nodup)
    (key : String) : (ofList entries).get? key = get? entries key := by
  have aux : ∀ (l : List (String × α)) (d : Dict α), (l.map Prod.fst).Nodup →
      get? (l.foldl (fun d e => d.insert e.1 e.2) d) key = (get? l key).or (d.get? key) := by
    intro l
    induction l with
    | nil => exact fun d _ => rfl
    | cons e rest ih =>
      obtain ⟨k, v⟩ := e
      intro d hl
      obtain ⟨hk, hrest⟩ := List.nodup_cons.1 hl
      rw [List.foldl_cons, ih _ hrest]
      by_cases heq : k = key
      · subst heq
        rw [get?_of_not_mem hk, get?_insert_self, get?, if_pos rfl]
        rfl
      · rw [get?_insert_of_ne d (Ne.symm heq), get?, if_neg heq]
  rw [ofList, aux entries [] h, get?_nil, Option.or_none]

/-- Putting an entry in keeps the order. -/
theorem Sorted.insert {d : Dict α} (h : d.Sorted) (key : String) (value : α) :
    (d.insert key value).Sorted := by
  induction d with
  | nil => simp [Sorted, Dict.insert]
  | cons e rest ih =>
    obtain ⟨k, v⟩ := e
    obtain ⟨hk, hrest⟩ := List.pairwise_cons.1 h
    by_cases hlt : key < k
    · refine (show Dict.insert ((k, v) :: rest) key value = (key, value) :: (k, v) :: rest by
        simp [Dict.insert, hlt]) ▸ ?_
      refine List.pairwise_cons.2 ⟨fun e he => ?_, h⟩
      rcases List.mem_cons.1 he with rfl | he
      · exact hlt
      · exact String.lt_trans hlt (hk e he)
    · by_cases heq : key = k
      · refine (show Dict.insert ((k, v) :: rest) key value = (key, value) :: rest by
          rw [Dict.insert, if_neg hlt, if_pos heq]) ▸ ?_
        exact List.pairwise_cons.2 ⟨fun e he => heq ▸ hk e he, hrest⟩
      · refine (show Dict.insert ((k, v) :: rest) key value = (k, v) :: Dict.insert rest key value by
          simp [Dict.insert, hlt, heq]) ▸ ?_
        refine List.pairwise_cons.2 ⟨fun e he => ?_, ih hrest⟩
        rcases (mem_keys_insert rest key value).1 (List.mem_map_of_mem he) with hkey | hmem
        · have hle : k ≤ key := String.not_lt.1 hlt
          rw [hkey]
          exact Classical.byContradiction fun hge =>
            heq (String.le_antisymm (String.not_lt.1 hge) hle)
        · obtain ⟨e', he', hfst⟩ := List.mem_map.1 hmem
          exact hfst ▸ hk e' he'

theorem Sorted.ofList (entries : List (String × α)) : (Dict.ofList entries).Sorted := by
  have aux : ∀ (l : List (String × α)) (d : Dict α), d.Sorted →
      (l.foldl (fun d e => d.insert e.1 e.2) d).Sorted := by
    intro l
    induction l with
    | nil => exact fun d h => h
    | cons e rest ih => exact fun d h => ih _ (h.insert e.1 e.2)
  exact aux entries [] List.Pairwise.nil

end Dict

end Lending
