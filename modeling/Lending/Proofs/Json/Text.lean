import Lending.Proofs.Document
import Lending.Proofs.Json.Kept
import Lending.Proofs.Json.Scan
import Mathlib.Data.List.Forall2

/-! The document that a JSON text holds is the document it was written from.

The characters of a document's text spell its tokens (`spells_write`), and its tokens build the
document again wherever a value may come (`builds_tokens`). That a real number is read back as the
number it was written from is a matter of the reader's conversion, and is assumed of the numbers
that occur (`ReadsBack`). The reader gives up on what is nested too deep, and on nothing else
(`read_write`). -/
namespace Lending.Json

variable {reals : Conversion}

/-- The text of a real number is a literal of the number. -/
def ReadsBack (reals : Conversion) (x : Float) : Prop :=
  number? reals (realText x).toList = some (.real x)

/-! ### Tokens -/

mutual

/-- The tokens of a document, in the order of its text. -/
def tokens : Document → List Token
  | .sequence items => .arrayStart :: ([.comma].intercalate (itemTokens items) ++ [.arrayEnd])
  | .mapping members =>
    .objectStart :: ([.comma].intercalate (memberTokens members) ++ [.objectEnd])
  | .tagged _ content => tokens content
  | .null => [.scalar .null]
  | .flag b => [.scalar (.flag b)]
  | .integer n => [.scalar (.integer n)]
  | .real x => [.scalar (.real x)]
  | .text s => [.scalar (.text s)]

def itemTokens : List Document → List (List Token)
  | [] => []
  | d :: rest => tokens d :: itemTokens rest

def memberTokens : List (Document × Document) → List (List Token)
  | [] => []
  | (.text key, d) :: rest => (.scalar (.text key) :: .colon :: tokens d) :: memberTokens rest
  | _ :: rest => memberTokens rest

end

/-! ### What the text spells -/

theorem spells_nil : Spells reals [] [] :=
  Closes.spells fun _ => rfl

/-- Spellings with commas between them. -/
theorem spells_intercalate {texts : List (List Char)} {spelled : List (List Token)}
    (h : List.Forall₂ (Spells reals) texts spelled) :
    Spells reals ([','].intercalate texts) ([.comma].intercalate spelled) := by
  induction h with
  | nil => exact spells_nil
  | @cons cs ts texts spelled hfirst hrest ih =>
    cases hrest with
    | nil => rwa [List.intercalate_singleton, List.intercalate_singleton]
    | cons hsecond hrest =>
      rw [List.intercalate_cons_cons, List.intercalate_cons_cons, List.append_assoc,
        List.append_assoc]
      have hcomma : Closes reals [','] [.comma] := closes_punctuation rfl
      refine hfirst.append (hcomma.append_spells ih) ?_
      rintro c ⟨⟩
      decide

/-- Spellings with commas between them, in brackets or braces. -/
theorem spells_enclosed {opening closing : Char} {first last : Token} {texts : List (List Char)}
    {spelled : List (List Token)} (hopening : punctuation? opening = some first)
    (hclosing : punctuation? closing = some last) (h : List.Forall₂ (Spells reals) texts spelled) :
    Spells reals (opening :: ([','].intercalate texts ++ [closing]))
      (first :: ([.comma].intercalate spelled ++ [last])) := by
  refine (closes_punctuation hopening).append_spells ((spells_intercalate h).append ?_ ?_)
  · exact (closes_punctuation hclosing).spells
  · rintro c ⟨⟩
    rw [isDelimiter, hclosing, Option.isSome_some, Bool.or_true]

theorem toList_enclosed (opening closing : String) (texts : List String) :
    (opening ++ Text.joined "," texts ++ closing).toList =
      opening.toList ++ ([','].intercalate (texts.map String.toList) ++ closing.toList) := by
  rw [String.toList_append, String.toList_append, Text.joined, String.toList_intercalate,
    List.append_assoc]
  rfl

mutual

/-- **A document's text spells its tokens.** -/
theorem spells_write {d : Document} (h : IsJson d) (hnumbers : ∀ x ∈ d.numbers, ReadsBack reals x) :
    Spells reals (write d).toList (tokens d) := by
  cases d with
  | null => exact spells_word (by decide) (List.all_eq_true.1 (by decide)) (by rfl)
  | flag b =>
    cases b with
    | false => exact spells_word (by decide) (List.all_eq_true.1 (by decide)) (by rfl)
    | true => exact spells_word (by decide) (List.all_eq_true.1 (by decide)) (by rfl)
  | integer n => exact spells_number (number?_repr h)
  | real x => exact spells_number (hnumbers x (List.mem_singleton_self x))
  | text s => exact (closes_quoted s).spells
  | sequence items =>
    rw [write, toList_enclosed]
    exact spells_enclosed rfl rfl (spells_items h hnumbers)
  | mapping members =>
    rw [write, toList_enclosed]
    exact spells_enclosed rfl rfl (spells_members h hnumbers)
  | tagged tag content => exact absurd h (by simp [IsJson])

theorem spells_items {items : List Document} (h : AreJson items)
    (hnumbers : ∀ x ∈ Document.itemNumbers items, ReadsBack reals x) :
    List.Forall₂ (Spells reals) ((writeItems items).map String.toList) (itemTokens items) := by
  cases items with
  | nil => exact .nil
  | cons d rest =>
    obtain ⟨hd, hrest⟩ := List.forall_mem_append.1 hnumbers
    exact .cons (spells_write h.1 hd) (spells_items h.2 hrest)

theorem spells_members {members : List (Document × Document)} (h : MembersAreJson members)
    (hnumbers : ∀ x ∈ Document.memberNumbers members, ReadsBack reals x) :
    List.Forall₂ (Spells reals) ((writeMembers members).map String.toList)
      (memberTokens members) := by
  match members with
  | [] => exact .nil
  | (.text key, d) :: rest =>
    rw [MembersAreJson] at h
    obtain ⟨hd, hrest⟩ := List.forall_mem_append.1 hnumbers
    have hkey : Closes reals ((quoted key).toList ++ [':']) [.scalar (.text key), .colon] :=
      (closes_quoted key).append (closes_punctuation rfl)
    rw [writeMembers, memberTokens, List.map_cons, String.toList_append, String.toList_append]
    exact .cons (hkey.append_spells (spells_write h.1 hd)) (spells_members h.2 hrest)
  | (.null, _) :: _ | (.flag _, _) :: _ | (.integer _, _) :: _ | (.real _, _) :: _
  | (.sequence _, _) :: _ | (.mapping _, _) :: _ | (.tagged _ _, _) :: _ =>
    simp [MembersAreJson] at h

end

/-! ### What the tokens build -/

/-- Tokens that complete a value wherever one may come. -/
def Builds (ts : List Token) (d : Document) : Prop :=
  ∀ b : Build, b.expecting = .value ∨ b.expecting = .firstItem →
    ts.foldlM Build.step b = some (b.put d)

/-- Where a value goes does not depend on what else might have come. -/
theorem put_eq (stack : List Frame) (e e' : Expecting) (result d : Document) :
    Build.put ⟨stack, e, result⟩ d = Build.put ⟨stack, e', result⟩ d := by
  cases stack with
  | nil => rfl
  | cons frame rest => cases frame <;> rfl

theorem builds_scalar (d : Document) : Builds [.scalar d] d := by
  rintro ⟨stack, expecting, result⟩ (rfl | rfl)
  · rfl
  · rfl

/-- Items with commas between them go into an open array. -/
theorem foldlM_items {items : List Document} {spelled : List (List Token)} (hne : items ≠ [])
    (h : List.Forall₂ Builds spelled items) (stack : List Frame) (result : Document) :
    ∀ (before : List Document) (e : Expecting), e = .value ∨ e = .firstItem →
      ([.comma].intercalate spelled).foldlM Build.step ⟨.array before :: stack, e, result⟩ =
        some ⟨.array (items.reverse ++ before) :: stack, .separator, result⟩ := by
  induction h with
  | nil => exact absurd rfl hne
  | @cons ts d spelled items hfirst hrest ih =>
    intro before e he
    cases hrest with
    | nil =>
      rw [List.intercalate_singleton]
      exact hfirst ⟨.array before :: stack, e, result⟩ he
    | cons hsecond hrest =>
      have hnext := ih (List.cons_ne_nil _ _) (d :: before) .value (.inl rfl)
      rw [List.intercalate_cons_cons, List.append_assoc, List.foldlM_append, hfirst _ he,
        List.reverse_cons, List.append_assoc]
      exact hnext

theorem builds_sequence {items : List Document} {spelled : List (List Token)}
    (h : List.Forall₂ Builds spelled items) :
    Builds (.arrayStart :: ([.comma].intercalate spelled ++ [.arrayEnd])) (.sequence items) := by
  rintro ⟨stack, expecting, result⟩ hexpecting
  have hstart : Build.step ⟨stack, expecting, result⟩ .arrayStart =
      some ⟨.array [] :: stack, .firstItem, result⟩ := by
    rcases hexpecting with rfl | rfl
    · rfl
    · rfl
  rw [List.foldlM_cons, hstart, Option.bind_eq_bind, Option.bind_some, List.foldlM_append]
  cases h with
  | nil => exact congrArg some (put_eq stack _ _ result _)
  | cons hfirst hrest =>
    rw [foldlM_items (List.cons_ne_nil _ _) (.cons hfirst hrest) stack result [] .firstItem
      (.inr rfl), List.append_nil]
    refine (congrArg some (put_eq stack .separator expecting result _)).trans ?_
    rw [List.reverse_reverse]

/-- Tokens that complete a member wherever one may come. The open object remembers the last key. -/
def BuildsMember (ts : List Token) (m : Document × Document) : Prop :=
  ∀ before key stack result e, e = .key ∨ e = .firstKey → ∃ key',
    ts.foldlM Build.step ⟨.object before key :: stack, e, result⟩ =
      some ⟨.object (m :: before) key' :: stack, .separator, result⟩

theorem buildsMember {ts : List Token} {d : Document} (key : String) (h : Builds ts d) :
    BuildsMember (.scalar (.text key) :: .colon :: ts) (.text key, d) := by
  rintro before key' stack result e he
  refine ⟨.text key, ?_⟩
  have hvalue := h ⟨.object before (.text key) :: stack, .value, result⟩ (.inl rfl)
  rcases he with rfl | rfl
  · exact hvalue
  · exact hvalue

/-- Members with commas between them go into an open object. -/
theorem foldlM_members {members : List (Document × Document)} {spelled : List (List Token)}
    (hne : members ≠ []) (h : List.Forall₂ BuildsMember spelled members) (stack : List Frame)
    (result : Document) :
    ∀ (before : List (Document × Document)) (key : Document) (e : Expecting),
      e = .key ∨ e = .firstKey → ∃ key',
        ([.comma].intercalate spelled).foldlM Build.step ⟨.object before key :: stack, e, result⟩ =
          some ⟨.object (members.reverse ++ before) key' :: stack, .separator, result⟩ := by
  induction h with
  | nil => exact absurd rfl hne
  | @cons ts m spelled members hfirst hrest ih =>
    intro before key e he
    obtain ⟨key', hkey'⟩ := hfirst before key stack result e he
    cases hrest with
    | nil =>
      rw [List.intercalate_singleton]
      exact ⟨key', hkey'⟩
    | cons hsecond hrest =>
      obtain ⟨last, hlast⟩ := ih (List.cons_ne_nil _ _) (m :: before) key' .key (.inl rfl)
      refine ⟨last, ?_⟩
      rw [List.intercalate_cons_cons, List.append_assoc, List.foldlM_append, hkey',
        List.reverse_cons, List.append_assoc]
      exact hlast

theorem builds_mapping {members : List (Document × Document)} {spelled : List (List Token)}
    (h : List.Forall₂ BuildsMember spelled members) :
    Builds (.objectStart :: ([.comma].intercalate spelled ++ [.objectEnd])) (.mapping members) := by
  rintro ⟨stack, expecting, result⟩ hexpecting
  have hstart : Build.step ⟨stack, expecting, result⟩ .objectStart =
      some ⟨.object [] .null :: stack, .firstKey, result⟩ := by
    rcases hexpecting with rfl | rfl
    · rfl
    · rfl
  rw [List.foldlM_cons, hstart, Option.bind_eq_bind, Option.bind_some, List.foldlM_append]
  cases h with
  | nil => exact congrArg some (put_eq stack _ _ result _)
  | cons hfirst hrest =>
    obtain ⟨key, hkey⟩ := foldlM_members (List.cons_ne_nil _ _) (.cons hfirst hrest) stack result []
      .null .firstKey (.inr rfl)
    rw [hkey, List.append_nil]
    refine (congrArg some (put_eq stack .separator expecting result _)).trans ?_
    rw [List.reverse_reverse]

mutual

/-- **A document's tokens build the document.** -/
theorem builds_tokens {d : Document} (h : IsJson d) : Builds (tokens d) d := by
  cases d with
  | null | flag | integer | real | text => exact builds_scalar _
  | sequence items => exact builds_sequence (builds_items h)
  | mapping members => exact builds_mapping (builds_members h)
  | tagged tag content => exact absurd h (by simp [IsJson])

theorem builds_items {items : List Document} (h : AreJson items) :
    List.Forall₂ Builds (itemTokens items) items := by
  cases items with
  | nil => exact .nil
  | cons d rest => exact .cons (builds_tokens h.1) (builds_items h.2)

theorem builds_members {members : List (Document × Document)} (h : MembersAreJson members) :
    List.Forall₂ BuildsMember (memberTokens members) members := by
  match members with
  | [] => exact .nil
  | (.text key, d) :: rest =>
    rw [MembersAreJson] at h
    exact .cons (buildsMember key (builds_tokens h.1)) (builds_members h.2)
  | (.null, _) :: _ | (.flag _, _) :: _ | (.integer _, _) :: _ | (.real _, _) :: _
  | (.sequence _, _) :: _ | (.mapping _, _) :: _ | (.tagged _ _, _) :: _ =>
    simp [MembersAreJson] at h

end

/-! ### Reading what was written -/

theorem tokens?_of_spells {s : String} {ts : List Token} (h : Spells reals s.toList ts) :
    tokens? reals s = some ts := by
  have hscan := h [] ' ' (by decide)
  have hend : Scan.step reals ⟨.between, ts.reverse ++ []⟩ ' ' = some ⟨.between, ts.reverse⟩ := by
    rw [List.append_nil]
    rfl
  rw [tokens?, hscan.trans hend]
  exact congrArg some (List.reverse_reverse ts)

/-- **The text of a document holds the document**, if its numbers' literals are read back. -/
theorem outline_write {d : Document} (h : IsJson d)
    (hnumbers : ∀ x ∈ d.numbers, ReadsBack reals x) : outline (write d) reals = some d := by
  have hbuild := builds_tokens h {} (.inl rfl)
  rw [outline, tokens?_of_spells (spells_write h hnumbers), Option.bind_eq_bind, Option.bind_some,
    hbuild]
  rfl

/-! ### Depth -/

mutual

/-- The number of arrays and objects around the innermost value. -/
def depth : Document → Nat
  | .sequence items => itemsDepth items + 1
  | .mapping members => membersDepth members + 1
  | .tagged _ content => depth content
  | .null | .flag _ | .integer _ | .real _ | .text _ => 0

def itemsDepth : List Document → Nat
  | [] => 0
  | d :: rest => max (depth d) (itemsDepth rest)

def membersDepth : List (Document × Document) → Nat
  | [] => 0
  | (_, d) :: rest => max (depth d) (membersDepth rest)

end

mutual

/-- Where nothing is marked, only depth keeps a document from being read. -/
theorem isReadable_iff {d : Document} (h : IsJson d) (levels : Nat) :
    isReadable levels d = true ↔ depth d ≤ levels := by
  cases d with
  | null | flag | integer | real | text => simp [isReadable, depth]
  | sequence items =>
    cases levels with
    | zero => simp [isReadable, depth]
    | succ levels =>
      rw [isReadable, depth, areReadable_iff h levels]
      omega
  | mapping members =>
    cases levels with
    | zero => simp [isReadable, depth]
    | succ levels =>
      rw [isReadable, depth, membersAreReadable_iff h levels]
      omega
  | tagged tag content => exact absurd h (by simp [IsJson])

theorem areReadable_iff {items : List Document} (h : AreJson items) (levels : Nat) :
    areReadable levels items = true ↔ itemsDepth items ≤ levels := by
  cases items with
  | nil => simp [areReadable, itemsDepth]
  | cons d rest =>
    rw [areReadable, itemsDepth, Bool.and_eq_true, isReadable_iff h.1 levels,
      areReadable_iff h.2 levels, Nat.max_le]

theorem membersAreReadable_iff {members : List (Document × Document)} (h : MembersAreJson members)
    (levels : Nat) : membersAreReadable levels members = true ↔ membersDepth members ≤ levels := by
  match members with
  | [] => simp [membersAreReadable, membersDepth]
  | (.text key, d) :: rest =>
    rw [MembersAreJson] at h
    have hkey : isReadable levels (.text key) = true := by simp [isReadable]
    rw [membersAreReadable, membersDepth, hkey, Bool.true_and, Bool.and_eq_true,
      isReadable_iff h.1 levels, membersAreReadable_iff h.2 levels, Nat.max_le]
  | (.null, _) :: _ | (.flag _, _) :: _ | (.integer _, _) :: _ | (.real _, _) :: _
  | (.sequence _, _) :: _ | (.mapping _, _) :: _ | (.tagged _ _, _) :: _ =>
    simp [MembersAreJson] at h

end

/-- **A text is read as the document it was written from, unless that is nested too deep.** -/
theorem read_write {d : Document} (h : IsJson d) (hnumbers : ∀ x ∈ d.numbers, ReadsBack reals x) :
    read (write d) reals = if depth d ≤ maxDepth then some d else none := by
  rw [read, outline_write h hnumbers, Option.filter_some]
  by_cases hdepth : depth d ≤ maxDepth
  · rw [if_pos hdepth, if_pos ((isReadable_iff h maxDepth).2 hdepth)]
  · rw [if_neg hdepth, if_neg (mt (isReadable_iff h maxDepth).1 hdepth)]

end Lending.Json
