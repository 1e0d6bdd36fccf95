import Lending.Context
import Lending.Applicant
import Lending.Form.Members

/-! The forms of attribute records: a mapping with a member for each attribute of which something
is known. -/
namespace Lending

namespace Kind

def form : (k : Kind) → k.Carrier → Document
  | .number, (x : Float) => .real x
  | .count, (n : UInt32) => Form.ofCount n
  | .flag, (b : Bool) => .flag b
  | .text, (s : String) => .text s

def ofForm? : (k : Kind) → Document → Option k.Carrier
  | .number, d => Form.number? d
  | .count, d => Form.count? d
  | .flag, d => Form.flag? d
  | .text, d => Form.text? d

end Kind

namespace Record
variable {S : Type} [StoredAttributes S]

def form (r : Record S) : Document :=
  .record <| StoredAttributes.all.flatMap fun a : S =>
    Form.optional (StoredAttributes.name a) (StoredAttributes.kind a).form (r.get a)

/-- Reads the attributes one by one into a record. -/
def readAll (m : Form.Members) (r : Record S) : List S → Option (Record S)
  | [] => some r
  | a :: rest => do
    let v ← m.optional (StoredAttributes.kind a).ofForm? (StoredAttributes.name a)
    readAll m (r.put a v) rest

def ofForm? (d : Document) : Option (Record S) := do
  let m ← Form.members? ((StoredAttributes.all : List S).map StoredAttributes.name) d
  readAll m empty StoredAttributes.all

end Record

end Lending
