import Lending.Json.Reader
import Lending.Json.Writer
import Mathlib.Data.List.TakeWhile

/-! Characters that are read as tokens.

`Spells reals cs ts` says that the tokenizer finds the tokens `ts` in the characters `cs` once a
space or a punctuation mark follows, whatever it has found before. Punctuation marks spell
themselves, a number's literal and a quoted text spell a scalar, and spellings are put one after the
other where the second one begins with a space or a punctuation mark. -/
namespace Lending.Json

/-! ### Spellings -/

/-- A space or a punctuation mark. -/
def isDelimiter (c : Char) : Bool :=
  isSpace c || (punctuation? c).isSome

/-- The tokens that are found in the characters before a delimiter. -/
def Spells (reals : Conversion) (cs : List Char) (ts : List Token) : Prop :=
  ∀ (found : List Token) (c : Char), isDelimiter c = true →
    (cs ++ [c]).foldlM (Scan.step reals) ⟨.between, found⟩ =
      Scan.step reals ⟨.between, ts.reverse ++ found⟩ c

/-- Characters after which the tokenizer is between tokens again. -/
def Closes (reals : Conversion) (cs : List Char) (ts : List Token) : Prop :=
  ∀ found : List Token,
    cs.foldlM (Scan.step reals) ⟨.between, found⟩ = some ⟨.between, ts.reverse ++ found⟩

variable {reals : Conversion} {cs cs' : List Char} {ts ts' : List Token}

theorem Closes.spells (h : Closes reals cs ts) : Spells reals cs ts := by
  intro found c _
  rw [List.foldlM_append, h found]
  exact bind_pure (Scan.step reals ⟨.between, ts.reverse ++ found⟩ c)

theorem Closes.append (h : Closes reals cs ts) (h' : Closes reals cs' ts') :
    Closes reals (cs ++ cs') (ts ++ ts') := by
  intro found
  rw [List.foldlM_append, h found, List.reverse_append, List.append_assoc]
  exact h' _

theorem Closes.append_spells (h : Closes reals cs ts) (h' : Spells reals cs' ts') :
    Spells reals (cs ++ cs') (ts ++ ts') := by
  intro found c hc
  rw [List.append_assoc, List.foldlM_append, h found, List.reverse_append, List.append_assoc]
  exact h' _ c hc

/-- Spellings one after the other, the second of which begins with a delimiter. -/
theorem Spells.append (h : Spells reals cs ts) (h' : Spells reals cs' ts')
    (hstart : ∀ c ∈ cs'.head?, isDelimiter c = true) : Spells reals (cs ++ cs') (ts ++ ts') := by
  intro found c hc
  obtain ⟨c', rest, hrest, hc'⟩ : ∃ c' rest, cs' ++ [c] = c' :: rest ∧ isDelimiter c' = true := by
    cases cs' with
    | nil => exact ⟨c, [], rfl, hc⟩
    | cons c' rest => exact ⟨c', rest ++ [c], rfl, hstart c' rfl⟩
  have hsecond := h' (ts.reverse ++ found) c hc
  rw [hrest, List.foldlM_cons] at hsecond
  rw [List.append_assoc, hrest, List.append_cons, List.foldlM_append, h found c' hc', hsecond,
    List.reverse_append, List.append_assoc]

/-- A punctuation mark. -/
theorem closes_punctuation {c : Char} {t : Token} (h : punctuation? c = some t) :
    Closes reals [c] [t] := by
  intro found
  unfold punctuation? at h
  split at h
  all_goals cases h
  all_goals rfl

/-! ### Words -/

/-- Neither a delimiter nor a quote. -/
def isWordChar (c : Char) : Bool :=
  !(isSpace c || c == '"' || (punctuation? c).isSome)

theorem step_first {c : Char} (h : isWordChar c = true) (found : List Token) :
    Scan.step reals ⟨.between, found⟩ c = some ⟨.word [c], found⟩ := by
  simp only [isWordChar, Bool.not_eq_true', Bool.or_eq_false_iff, beq_eq_false_iff_ne,
    Option.isSome_eq_false_iff, Option.isNone_iff_eq_none] at h
  obtain ⟨⟨hspace, hquote⟩, hmark⟩ := h
  simp [Scan.step, outside, hspace, hquote, hmark]

theorem foldlM_word (h : ∀ c ∈ cs, isWordChar c = true) (letters : List Char) (found : List Token) :
    cs.foldlM (Scan.step reals) ⟨.word letters, found⟩ =
      some ⟨.word (cs.reverse ++ letters), found⟩ := by
  induction cs generalizing letters with
  | nil => rfl
  | cons c rest ih =>
    obtain ⟨hc, hrest⟩ := List.forall_mem_cons.1 h
    have hstep : Scan.step reals ⟨.word letters, found⟩ c = some ⟨.word (c :: letters), found⟩ := by
      rw [isWordChar, Bool.not_eq_true'] at hc
      simp only [Scan.step, hc]
      rfl
    rw [List.foldlM_cons, hstep, List.reverse_cons, List.append_assoc]
    exact ih hrest (c :: letters)

/-- A word that has begun and not ended. -/
theorem foldlM_begun (hne : cs ≠ []) (h : ∀ c ∈ cs, isWordChar c = true) (found : List Token) :
    cs.foldlM (Scan.step reals) ⟨.between, found⟩ = some ⟨.word cs.reverse, found⟩ := by
  cases cs with
  | nil => exact absurd rfl hne
  | cons first rest =>
    obtain ⟨hfirst, hrest⟩ := List.forall_mem_cons.1 h
    rw [List.foldlM_cons, step_first hfirst, List.reverse_cons]
    exact foldlM_word hrest [first] found

/-- A delimiter ends a word. -/
theorem step_delimiter {letters : List Char} {t : Token} {c : Char} (hletters : letters ≠ [])
    (hword : word? reals letters.reverse = some t) (hc : isDelimiter c = true)
    (found : List Token) :
    Scan.step reals ⟨.word letters, found⟩ c = Scan.step reals ⟨.between, t :: found⟩ c := by
  have hempty : letters.isEmpty = false := by simpa using hletters
  -- Only a character that begins a word would tell the two apart.
  rw [isDelimiter, Bool.or_eq_true] at hc
  rcases hc with hspace | hmark
  · simp [Scan.step, outside, hempty, hword, hspace]
  · obtain ⟨mark, hmark⟩ := Option.isSome_iff_exists.1 hmark
    simp [Scan.step, outside, hempty, hword, hmark]

/-- A word is the token it stands for. -/
theorem spells_word {t : Token} (hne : cs ≠ []) (hchars : ∀ c ∈ cs, isWordChar c = true)
    (hword : word? reals cs = some t) : Spells reals cs [t] := by
  intro found c hc
  rw [List.foldlM_append, foldlM_begun hne hchars]
  show (Scan.step reals ⟨.word cs.reverse, found⟩ c >>= pure) = _
  rw [bind_pure]
  exact step_delimiter (by simpa using hne) (by rwa [List.reverse_reverse]) hc found

/-! ### Numbers -/

/-- The characters that no word has. -/
def reserved : List Char :=
  [' ', '\n', '\t', '\r', '"', '[', ']', '\x7b', '\x7d', ',', ':']

theorem isWordChar_of_not_mem {c : Char} (h : c ∉ reserved) : isWordChar c = true := by
  simp only [reserved, List.mem_cons, List.not_mem_nil, or_false, not_or] at h
  obtain ⟨h1, h2, h3, h4, h5, h6, h7, h8, h9, h10, h11⟩ := h
  have hmark : punctuation? c = none := by
    unfold punctuation?
    split <;> simp_all
  simp [isWordChar, isSpace, hmark, h1, h2, h3, h4, h5]

theorem isWordChar_of_isDigit {c : Char} (h : Number.isDigit c = true) : isWordChar c = true := by
  have hreserved : (reserved.all fun c => !Number.isDigit c) = true := by decide
  refine isWordChar_of_not_mem fun hc => ?_
  have hdigit := List.all_eq_true.1 hreserved c hc
  rw [h] at hdigit
  cases hdigit

/-- A run of digits and what follows it. -/
theorem isWordChar_of_span (h : ∀ c ∈ cs.dropWhile Number.isDigit, isWordChar c = true) :
    ∀ c ∈ cs, isWordChar c = true := by
  rw [← List.takeWhile_append_dropWhile (p := Number.isDigit) (l := cs), List.forall_mem_append]
  exact ⟨fun c hc => isWordChar_of_isDigit (List.all_eq_true.1 List.all_takeWhile c hc), h⟩

theorem isWordChar_of_splitSign (h : ∀ c ∈ (Number.splitSign cs).2, isWordChar c = true) :
    ∀ c ∈ cs, isWordChar c = true := by
  unfold Number.splitSign at h
  split at h
  · exact List.forall_mem_cons.2 ⟨by decide, h⟩
  · exact List.forall_mem_cons.2 ⟨by decide, h⟩
  · exact h

theorem isWordChar_of_exponent {e : Int} (h : Number.exponent? cs = some e) :
    ∀ c ∈ cs, isWordChar c = true := by
  cases cs with
  | nil => exact List.forall_mem_nil _
  | cons c rest =>
    simp only [Number.exponent?] at h
    split at h
    · next hexponent =>
      obtain ⟨hc, -, hdigits⟩ := hexponent
      refine List.forall_mem_cons.2 ⟨?_, ?_⟩
      · rcases hc with rfl | rfl
        · decide
        · decide
      · exact isWordChar_of_splitSign fun c hc =>
          isWordChar_of_isDigit (List.all_eq_true.1 hdigits c hc)
    · cases h

theorem isWordChar_of_literal {whole : List Char} {l : Literal} (h : literal? whole cs = some l) :
    ∀ c ∈ cs, isWordChar c = true := by
  unfold literal? at h
  split at h
  · next rest =>
    dsimp only at h
    split at h
    · cases h
    · obtain ⟨e, he, -⟩ := Option.map_eq_some_iff.1 h
      exact List.forall_mem_cons.2 ⟨by decide, isWordChar_of_span (isWordChar_of_exponent he)⟩
  · obtain ⟨e, he, -⟩ := Option.map_eq_some_iff.1 h
    exact isWordChar_of_exponent he

/-- A number's literal is a word. -/
theorem isWordChar_of_number {d : Document} (h : number? reals cs = some d) :
    cs ≠ [] ∧ ∀ c ∈ cs, isWordChar c = true := by
  constructor
  · rintro rfl
    cases h
  · -- The sign apart, there are digits with nothing or a tail behind them.
    have hunsigned :
        ∀ c ∈ (if cs.head? == some '-' then cs.drop 1 else cs), isWordChar c = true := by
      refine isWordChar_of_span ?_
      unfold number? at h
      dsimp only at h
      generalize (if cs.head? == some '-' then cs.drop 1 else cs) = unsigned at h ⊢
      split at h
      · cases h
      · split at h
        · next hrest =>
          rw [List.isEmpty_iff.1 hrest]
          exact List.forall_mem_nil _
        · obtain ⟨x, hx, -⟩ := Option.map_eq_some_iff.1 h
          exact isWordChar_of_literal hx
    cases cs with
    | nil => exact List.forall_mem_nil _
    | cons c rest =>
      by_cases hsign : c = '-'
      · subst hsign
        exact List.forall_mem_cons.2 ⟨by decide, hunsigned⟩
      · rwa [if_neg (by simpa using hsign)] at hunsigned

theorem word?_of_number {d : Document} (h : number? reals cs = some d) :
    word? reals cs = some (.scalar d) := by
  have hne : ∀ word : String, number? reals word.toList = none → String.ofList cs ≠ word := by
    rintro word hword rfl
    rw [String.toList_ofList, h] at hword
    cases hword
  unfold word?
  split
  · next hword => exact absurd hword (hne _ (by rfl))
  · next hword => exact absurd hword (hne _ (by rfl))
  · next hword => exact absurd hword (hne _ (by rfl))
  · rw [h, Option.map_some]

/-- A number's literal is the number. -/
theorem spells_number {d : Document} (h : number? reals cs = some d) :
    Spells reals cs [.scalar d] := by
  obtain ⟨hne, hchars⟩ := isWordChar_of_number h
  exact spells_word hne hchars (word?_of_number h)

/-! ### Whole numbers -/

theorem isDigit_of_mem_toDigits {n : Nat} {c : Char} (h : c ∈ Nat.toDigits 10 n) :
    Number.isDigit c = true := by
  have hdigit := Nat.isDigit_of_mem_toDigits (by decide) (by decide) h
  simpa [Number.isDigit, Char.isDigit, Char.le_def] using hdigit

/-- Zero alone begins with a zero. -/
theorem eq_zero_of_head_toDigits {n : Nat} (h : (Nat.toDigits 10 n).head? = some '0') : n = 0 := by
  induction n using Nat.strongRecOn with
  | ind n ih =>
    by_cases hn : n < 10
    · have hzero : ∀ n < 10, [Nat.digitChar n].head? = some '0' → n = 0 := by decide
      rw [Nat.toDigits_of_lt_base hn] at h
      exact hzero n hn h
    · have hten : 10 ≤ n := Nat.le_of_not_lt hn
      obtain ⟨first, rest, hdigits⟩ :=
        List.exists_cons_of_ne_nil (Nat.toDigits_ne_nil (n := n / 10) (b := 10))
      rw [Nat.toDigits_of_base_le (by decide) hten, hdigits, List.cons_append] at h
      have hdiv : n / 10 = 0 := ih (n / 10) (by omega) (by rw [hdigits]; exact h)
      omega

theorem digitsValue_toDigits (n : Nat) : Number.digitsValue (Nat.toDigits 10 n) = n := by
  have hvalue := Nat.ofDigitChars_ten_toDigits (n := n)
  rwa [Nat.ofDigitChars_eq_foldl] at hvalue

/-- The literal of a whole number of 64 bits. -/
theorem number?_repr {n : Int} (h : 0 ≤ n ∧ n < UInt64.size) :
    number? reals n.repr.toList = some (.integer n) := by
  obtain ⟨m, rfl⟩ := Int.eq_ofNat_of_zero_le h.1
  have hlist : (Int.repr m).toList = Nat.toDigits 10 m := Nat.toList_repr
  have hdigits : ∀ c ∈ Nat.toDigits 10 m, Number.isDigit c = true :=
    fun c => isDigit_of_mem_toDigits
  have hsign : ((Nat.toDigits 10 m).head? == some '-') = false := by
    rw [beq_eq_false_iff_ne]
    intro hminus
    have hdigit := hdigits '-' (List.mem_of_head? hminus)
    revert hdigit
    decide
  have hneedless : ((Nat.toDigits 10 m).isEmpty || ((Nat.toDigits 10 m).head? == some '0' &&
      decide (1 < (Nat.toDigits 10 m).length))) = false := by
    by_cases hzero : (Nat.toDigits 10 m).head? = some '0'
    · rw [eq_zero_of_head_toDigits hzero]
      decide
    · simp [hzero, Nat.toDigits_ne_nil]
  have hbound : decide (m < UInt64.size) = true := decide_eq_true (Int.ofNat_lt.1 h.2)
  rw [hlist, number?]
  simp only [hsign, Bool.false_eq_true, if_false, List.takeWhile_eq_self_iff.2 hdigits,
    List.dropWhile_eq_nil_iff.2 hdigits, hneedless, digitsValue_toDigits, hbound]
  rfl

/-! ### Quoted texts -/

/-- A text that is open, with the characters it has so far in reverse. -/
abbrev inside (chars : List Char) (found : List Token) : Scan :=
  ⟨.text (some chars), found⟩

theorem hexDigit?_hexDigit : ∀ n < 16, hexDigit? (hexDigit n) = some n := by
  decide

/-- The four-digit escape of a control character. -/
theorem foldlM_control {c : Char} (h : c.toNat < 0x20) (chars : List Char) (found : List Token) :
    ['\\', 'u', '0', '0', hexDigit (c.toNat / 16), hexDigit (c.toNat % 16)].foldlM (Scan.step reals)
      (inside chars found) = some (inside (c :: chars) found) := by
  have hhigh : hexDigit? (hexDigit (c.toNat / 16)) = some (c.toNat / 16) :=
    hexDigit?_hexDigit _ (by omega)
  have hlow : hexDigit? (hexDigit (c.toNat % 16)) = some (c.toNat % 16) :=
    hexDigit?_hexDigit _ (by omega)
  have hescape : ['\\', 'u', '0', '0'].foldlM (Scan.step reals) (inside chars found) =
      some ⟨.code (some chars) none 2 0, found⟩ := rfl
  have hthird : Scan.step reals ⟨.code (some chars) none 2 0, found⟩ (hexDigit (c.toNat / 16)) =
      some ⟨.code (some chars) none 3 (c.toNat / 16), found⟩ := by
    simp [Scan.step, hhigh]
  have hvalue : 16 * (c.toNat / 16) + c.toNat % 16 = c.toNat := Nat.div_add_mod _ _
  have hchar : afterCode (some chars) none c.toNat = .text (some (c :: chars)) := by
    have hpair : ¬ 0xd800 ≤ c.toNat := by omega
    have hlow : ¬ 0xdc00 ≤ c.toNat := by omega
    simp [afterCode, hpair, hlow]
  have hfourth : Scan.step reals ⟨.code (some chars) none 3 (c.toNat / 16), found⟩
      (hexDigit (c.toNat % 16)) = some (inside (c :: chars) found) := by
    simp [Scan.step, hlow, hvalue, hchar]
  show (['\\', 'u', '0', '0'] ++ [_, _]).foldlM (Scan.step reals) (inside chars found) = _
  rw [List.foldlM_append, hescape]
  show ((Scan.step reals _ _).bind fun s => (Scan.step reals s _).bind pure) = _
  rw [hthird, Option.bind_some, hfourth]
  rfl

theorem foldlM_short {c letter : Char} (h : shortEscape? c = some letter) (chars : List Char)
    (found : List Token) : ['\\', letter].foldlM (Scan.step reals) (inside chars found) =
      some (inside (c :: chars) found) := by
  unfold shortEscape? at h
  split at h
  all_goals cases h
  all_goals rfl

/-- The characters that mean something inside of a text have escapes. -/
theorem ne_of_shortEscape?_eq_none {c : Char} (h : shortEscape? c = none) :
    c ≠ '"' ∧ c ≠ '\\' := by
  constructor
  · rintro rfl
    cases h
  · rintro rfl
    cases h

theorem foldlM_escapedChar (c : Char) (chars : List Char) (found : List Token) :
    (escapedChar c).foldlM (Scan.step reals) (inside chars found) =
      some (inside (c :: chars) found) := by
  unfold escapedChar
  split
  · next letter hshort => exact foldlM_short hshort chars found
  · next hnone =>
    obtain ⟨hquote, hbackslash⟩ := ne_of_shortEscape?_eq_none hnone
    split
    · next hcontrol => exact foldlM_control hcontrol chars found
    · next hcontrol => simp [Scan.step, inText, hquote, hbackslash, hcontrol]

theorem foldlM_escaped (text chars : List Char) (found : List Token) :
    (text.flatMap escapedChar).foldlM (Scan.step reals) (inside chars found) =
      some (inside (text.reverse ++ chars) found) := by
  induction text generalizing chars with
  | nil => rfl
  | cons c rest ih =>
    rw [List.flatMap_cons, List.foldlM_append, foldlM_escapedChar, List.reverse_cons,
      List.append_assoc]
    exact ih (c :: chars)

/-- A quoted text is the text. -/
theorem closes_quoted (s : String) : Closes reals (quoted s).toList [.scalar (.text s)] := by
  intro found
  have hopen : Scan.step reals ⟨.between, found⟩ '"' = some (inside [] found) := rfl
  have hclose : Scan.step reals (inside s.toList.reverse found) '"' =
      some ⟨.between, .scalar (.text s) :: found⟩ := by
    simp [Scan.step, inText, ofSpelling]
  rw [quoted, String.toList_ofList, List.foldlM_cons, hopen, Option.bind_eq_bind, Option.bind_some,
    List.foldlM_append, foldlM_escaped, List.append_nil, Option.bind_eq_bind, Option.bind_some,
    List.foldlM_cons, hclose]
  rfl

end Lending.Json
