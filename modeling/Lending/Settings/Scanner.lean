/-! Scanning a text from its front. A step takes characters off the text or finds a fault. -/
namespace Lending

/-- A step; the state is what is still to be read. -/
abbrev Scanner := StateT (List Char) Option

namespace Scanner
variable {α : Type}

def fault : Scanner α :=
  fun _ => none

/-- What a value that may be missing is worth. -/
def ofOption : Option α → Scanner α
  | some a => return a
  | none => fault

def peek : Scanner (Option Char) :=
  fun cs => some (cs.head?, cs)

/-- Takes a character, which has to be there. -/
def next : Scanner Char
  | c :: rest => some (c, rest)
  | [] => none

/-- Whether the text goes on with these characters. -/
def sees (s : String) : Scanner Bool :=
  fun cs => some (s.toList.isPrefixOf cs, cs)

/-- Passes over characters if they come next. -/
def passes (s : String) : Scanner Bool :=
  fun cs =>
    if s.toList.isPrefixOf cs then some (true, cs.drop s.toList.length) else some (false, cs)

/-- Passes over characters that have to come next. -/
def expect (s : String) : Scanner Unit := do
  if ← passes s then return () else fault

def takeWhile (p : Char → Bool) : Scanner (List Char) :=
  fun cs => some (cs.span p)

def skipWhile (p : Char → Bool) : Scanner Unit := do
  let _ ← takeWhile p

/-- Takes so many characters. -/
def take (n : Nat) : Scanner (List Char) :=
  fun cs => if cs.length < n then none else some (cs.splitAt n)

/-- Repeats a step until it gives nothing. -/
def collectFrom (step : Scanner (Option α)) : Nat → Scanner (List α)
  | 0 => fault
  | fuel + 1 => do
    match ← step with
    | some a => return a :: (← collectFrom step fuel)
    | none => return []

/-- Repeats a step that takes characters whenever it gives something. -/
def collect (step : Scanner (Option α)) : Scanner (List α) := do
  collectFrom step ((← get).length + 1)

/-- Repeats a step as long as it says that it goes on. -/
def loop (step : Scanner Bool) : Scanner Unit := do
  let _ ← collect do
    if ← step then return some () else return none

/-- Items with commas between them, up to the end. Space may stand around items, and a comma
behind the last one. -/
def itemsFrom (space : Scanner Unit) (close : String) (item : Scanner α) : Nat → Scanner (List α)
  | 0 => fault
  | fuel + 1 => do
    space
    if ← passes close then return []
    let a ← item
    space
    if ← passes "," then return a :: (← itemsFrom space close item fuel)
    else
      expect close
      return [a]

def items (space : Scanner Unit) (close : String) (item : Scanner α) : Scanner (List α) := do
  itemsFrom space close item ((← get).length + 1)

/-- What a step makes of a whole text. -/
def run? (scan : Scanner α) (s : String) : Option α := do
  let (a, rest) ← scan s.toList
  if rest.isEmpty then return a else none

/-- The character of a hexadecimal code, unless it is half of a surrogate pair or too large. -/
def ofCode? (n : Nat) : Option Char :=
  if (0xd800 ≤ n ∧ n < 0xe000) ∨ 0x10ffff < n then none else some (Char.ofNat n)

end Scanner

end Lending
