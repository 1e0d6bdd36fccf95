/-! Texts as the policy documents use them.

Labels, operator names and yes/no answers are compared after trimming and without regard
to case. Trimming removes every character with the White_Space property; case is that of
the ASCII letters only, so `é` and `É` stay different. Everything is stated on lists of
characters and lifted to `String` once. -/
namespace Lending.Text

/-! ### Blanks -/

/-- The characters with the White_Space property. -/
def isBlank (c : Char) : Bool :=
  ('\t' ≤ c && c ≤ '\r') || c == ' ' || c == '\u0085' || c == '\u00a0' || c == '\u1680' ||
    ('\u2000' ≤ c && c ≤ '\u200a') || c == '\u2028' || c == '\u2029' || c == '\u202f' ||
    c == '\u205f' || c == '\u3000'

/-- Drops the blanks at both ends. -/
def trimChars (cs : List Char) : List Char :=
  ((cs.dropWhile isBlank).reverse.dropWhile isBlank).reverse

def trim (s : String) : String :=
  String.ofList (trimChars s.toList)

/-- Nothing but blanks. -/
def isBlankText (s : String) : Bool :=
  s.toList.all isBlank

/-! ### Letter case -/

def lowerChars (cs : List Char) : List Char :=
  cs.map Char.toLower

def lower (s : String) : String :=
  String.ofList (lowerChars s.toList)

/-- The form in which keywords are compared. -/
def keyword (s : String) : String :=
  lower (trim s)

/-- Equal but for the case of ASCII letters. -/
def sameLetters (a b : String) : Bool :=
  lowerChars a.toList == lowerChars b.toList

/-! ### Lines -/

/-- The lines of a text, without their ends. A line ends with a line feed, before which one
carriage return belongs to the end; the last line may lack its end. -/
def lineChars : List Char → List (List Char)
  | [] => []
  | '\r' :: '\n' :: rest => [] :: lineChars rest
  | '\n' :: rest => [] :: lineChars rest
  | c :: rest =>
    match lineChars rest with
    | [] => [[c]]
    | line :: lines => (c :: line) :: lines

def lines (s : String) : List String :=
  (lineChars s.toList).map String.ofList

/-! ### Cutting -/

/-- The parts before and after the first `c`. -/
def splitOnce (c : Char) (s : String) : Option (String × String) :=
  match s.toList.dropWhile (· != c) with
  | [] => none
  | _ :: rest => some (String.ofList (s.toList.takeWhile (· != c)), String.ofList rest)

/-- Items with `separator` between them. -/
def joined (separator : String) (items : List String) : String :=
  separator.intercalate items

/-! ### Repetition -/

/-- The first text that is among those seen before it. -/
def firstRepeat? (seen : List String) : List String → Option String
  | [] => none
  | s :: rest => if s ∈ seen then some s else firstRepeat? (s :: seen) rest

theorem firstRepeat?_eq_none_iff (seen texts : List String) :
    firstRepeat? seen texts = none ↔ texts.Nodup ∧ ∀ s ∈ texts, s ∉ seen := by
  induction texts generalizing seen with
  | nil => simp [firstRepeat?]
  | cons s rest ih =>
    by_cases hs : s ∈ seen
    · simp [firstRepeat?, hs]
    · rw [firstRepeat?, if_neg hs, ih, List.nodup_cons, List.forall_mem_cons]
      simp only [List.mem_cons, not_or]
      constructor
      · rintro ⟨hrest, hnew⟩
        exact ⟨⟨fun h => (hnew s h).1 rfl, hrest⟩, hs, fun x hx => (hnew x hx).2⟩
      · rintro ⟨⟨hmem, hrest⟩, _, hnew⟩
        exact ⟨hrest, fun x hx => ⟨fun he => hmem (he ▸ hx), hnew x hx⟩⟩

end Lending.Text
