/-! Edit distance: how many characters have to be put in, taken out or exchanged to turn one
text into the other.

The distances between the prefixes of the first text and those of the second make a table with
a row for each prefix of the first. `writeRow` makes a row from the one before it, so only two
rows are kept, and each is written over the one before the last. -/
namespace Lending.Text

/-- Writes the row of a prefix with `c` at its end over an old row. The prefix without `c` has `i`
characters, and its row is `previous`. -/
def writeRow (target : Array Char) (c : Char) (i : Nat)
    (previous old : Vector Nat (target.size + 1)) : Vector Nat (target.size + 1) := Id.run do
  let mut row := old.set 0 (i + 1)
  for h : j in 0...target.size do
    let cost := if c = target[j] then 0 else 1
    row := row.set (j + 1) (min (min (previous[j + 1] + 1) (row[j] + 1)) (previous[j] + cost))
  return row

/-- The edit distance of two arrays of characters: the last cell of the last row. -/
def editChars (source target : Array Char) : Nat := Id.run do
  if source.isEmpty then return target.size
  if target.isEmpty then return source.size
  let mut previous := Vector.ofFn fun j : Fin (target.size + 1) => j.val
  let mut current := Vector.replicate (target.size + 1) 0
  for h : i in 0...source.size do
    current := writeRow target source[i] i previous current
    (previous, current) := (current, previous)
  return previous[target.size]

def editDistance (s t : String) : Nat :=
  editChars s.toList.toArray t.toList.toArray

/-- The first of the candidates that are nearest to a text, none of them farther than `limit`. -/
def nearest? (limit : Nat) (s : String) : List String → Option String
  | [] => none
  | candidate :: rest =>
    if limit < editDistance s candidate then nearest? limit s rest
    else
      match nearest? limit s rest with
      | some other =>
        if editDistance s other < editDistance s candidate then some other else some candidate
      | none => some candidate

end Lending.Text
