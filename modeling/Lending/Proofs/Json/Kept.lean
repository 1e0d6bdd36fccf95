import Lending.Json.Writer

/-! What JSON keeps of a document.

JSON has no text for a number that is not finite, no tags, and no keys but texts. `kept` is the
document without what is lost; the two have the same text. A document that has nothing to lose is
kept as it is. -/
namespace Lending.Json

mutual

/-- What the JSON text of a document holds of it: a number that is not finite is null there, and
tags are dropped like members whose key is not a text. -/
def kept : Document → Document
  | .real x => if x.isFinite then .real x else .null
  | .sequence items => .sequence (keptItems items)
  | .mapping members => .mapping (keptMembers members)
  | .tagged _ content => kept content
  | .null => .null
  | .flag b => .flag b
  | .integer n => .integer n
  | .text s => .text s

def keptItems : List Document → List Document
  | [] => []
  | d :: rest => kept d :: keptItems rest

def keptMembers : List (Document × Document) → List (Document × Document)
  | [] => []
  | (.text key, d) :: rest => (.text key, kept d) :: keptMembers rest
  | _ :: rest => keptMembers rest

end

mutual

/-- **A document and what is kept of it have the same text.** -/
theorem write_kept (d : Document) : write (kept d) = write d := by
  cases d with
  | null | flag | integer | text => rw [kept]
  | real x =>
    rw [kept]
    split
    · rfl
    · next h => rw [write, write, realText, if_neg h]
  | sequence items => rw [kept, write, write, writeItems_kept items]
  | mapping members => rw [kept, write, write, writeMembers_kept members]
  | tagged tag content => rw [kept, write, write_kept content]

theorem writeItems_kept (items : List Document) :
    writeItems (keptItems items) = writeItems items := by
  cases items with
  | nil => rfl
  | cons d rest => rw [keptItems, writeItems, writeItems, write_kept d, writeItems_kept rest]

theorem writeMembers_kept (members : List (Document × Document)) :
    writeMembers (keptMembers members) = writeMembers members := by
  match members with
  | [] => rfl
  | (.text key, d) :: rest =>
    rw [keptMembers, writeMembers, writeMembers, write_kept d, writeMembers_kept rest]
  | (.null, _) :: rest | (.flag _, _) :: rest | (.integer _, _) :: rest | (.real _, _) :: rest
  | (.sequence _, _) :: rest | (.mapping _, _) :: rest | (.tagged _ _, _) :: rest =>
    rw [keptMembers, writeMembers, writeMembers_kept rest] <;> simp

end

/-! ### Documents with nothing to lose -/

mutual

/-- Finite numbers, whole ones of 64 bits, no tags, and texts as keys. -/
def IsJson : Document → Prop
  | .null | .flag _ | .text _ => True
  | .integer n => 0 ≤ n ∧ n < UInt64.size
  | .real x => x.isFinite = true
  | .sequence items => AreJson items
  | .mapping members => MembersAreJson members
  | .tagged _ _ => False

def AreJson : List Document → Prop
  | [] => True
  | d :: rest => IsJson d ∧ AreJson rest

def MembersAreJson : List (Document × Document) → Prop
  | [] => True
  | (.text _, d) :: rest => IsJson d ∧ MembersAreJson rest
  | _ :: _ => False

end

theorem areJson_iff {items : List Document} : AreJson items ↔ ∀ d ∈ items, IsJson d := by
  induction items with
  | nil => simp [AreJson]
  | cons d rest ih => rw [AreJson, ih, List.forall_mem_cons]

theorem isJson_record {members : List (String × Document)} :
    IsJson (.record members) ↔ ∀ m ∈ members, IsJson m.2 := by
  rw [Document.record, IsJson]
  induction members with
  | nil => simp [MembersAreJson]
  | cons m rest ih => rw [List.map_cons, MembersAreJson, ih, List.forall_mem_cons]

mutual

/-- **JSON keeps what it can hold.** -/
theorem kept_of_isJson {d : Document} (h : IsJson d) : kept d = d := by
  cases d with
  | null | flag | integer | text => rw [kept]
  | real x =>
    rw [IsJson] at h
    rw [kept, if_pos h]
  | sequence items =>
    rw [IsJson] at h
    rw [kept, keptItems_of_areJson h]
  | mapping members =>
    rw [IsJson] at h
    rw [kept, keptMembers_of_areJson h]
  | tagged tag content => exact absurd h (by simp [IsJson])

theorem keptItems_of_areJson {items : List Document} (h : AreJson items) :
    keptItems items = items := by
  cases items with
  | nil => rfl
  | cons d rest => rw [keptItems, kept_of_isJson h.1, keptItems_of_areJson h.2]

theorem keptMembers_of_areJson {members : List (Document × Document)} (h : MembersAreJson members) :
    keptMembers members = members := by
  match members with
  | [] => rfl
  | (.text key, d) :: rest =>
    rw [MembersAreJson] at h
    rw [keptMembers, kept_of_isJson h.1, keptMembers_of_areJson h.2]
  | (.null, _) :: _ | (.flag _, _) :: _ | (.integer _, _) :: _ | (.real _, _) :: _
  | (.sequence _, _) :: _ | (.mapping _, _) :: _ | (.tagged _ _, _) :: _ =>
    simp [MembersAreJson] at h

end

end Lending.Json
