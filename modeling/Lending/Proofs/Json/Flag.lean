import Lending.Proofs.Json.Scan
import Lending.Text

/-! Texts that are read as a truth value.

A text is read as a truth value if the tokenizer finds that one token in it: what is built of more
tokens is an array or an object (`tokens?_of_outline_flag`). The token was a word, for what begins
with a quote or a mark begins with another token (`StartsOtherwise`), and after a word anything but
spaces is one token more (`Scan.found`). So of the texts without outer blanks there are two
(`text_of_read_flag`). -/
namespace Lending.Json

variable {reals : Conversion}

/-! ### Blanks at the ends -/

theorem isBlank_of_isSpace {c : Char} (h : isSpace c = true) : Text.isBlank c = true := by
  simp only [isSpace, Bool.or_eq_true, beq_iff_eq] at h
  rcases h with ((rfl | rfl) | rfl) | rfl <;> decide

/-- What trimming leaves as it is has no blanks at its ends. -/
theorem dropWhile_of_trimChars {cs : List Char} (h : Text.trimChars cs = cs) :
    cs.dropWhile Text.isBlank = cs ∧ cs.reverse.dropWhile Text.isBlank = cs.reverse := by
  unfold Text.trimChars at h
  have hfront := List.dropWhile_suffix Text.isBlank (l := cs)
  have hback := List.dropWhile_suffix Text.isBlank (l := (cs.dropWhile Text.isBlank).reverse)
  have hlength := congrArg List.length h
  rw [List.length_reverse] at hlength
  have hle := hback.length_le
  rw [List.length_reverse] at hle
  have hsame : cs.dropWhile Text.isBlank = cs :=
    hfront.eq_of_length (Nat.le_antisymm hfront.length_le (by omega))
  rw [hsame] at h
  exact ⟨hsame, by rw [← List.reverse_inj, h, List.reverse_reverse]⟩

theorem head_not_space {c : Char} {rest : List Char} (h : Text.trimChars (c :: rest) = c :: rest) :
    isSpace c = false := by
  obtain ⟨hfront, -⟩ := dropWhile_of_trimChars h
  by_contra hspace
  have hblank := isBlank_of_isSpace (Bool.not_eq_false _ ▸ hspace)
  rw [List.dropWhile_cons_of_pos hblank] at hfront
  have hle := (List.dropWhile_suffix Text.isBlank (l := rest)).length_le
  rw [hfront, List.length_cons] at hle
  omega

theorem last_not_space {c : Char} {front : List Char}
    (h : Text.trimChars (front ++ [c]) = front ++ [c]) : isSpace c = false := by
  obtain ⟨-, hback⟩ := dropWhile_of_trimChars h
  by_contra hspace
  have hblank := isBlank_of_isSpace (Bool.not_eq_false _ ▸ hspace)
  rw [List.reverse_append, List.reverse_singleton, List.singleton_append,
    List.dropWhile_cons_of_pos hblank] at hback
  have hle := (List.dropWhile_suffix Text.isBlank (l := front.reverse)).length_le
  rw [hback, List.length_cons] at hle
  omega

/-! ### One token -/

/-- What comes of a value that was opened: it is still open, or it is no truth value. -/
def Opened (b : Build) : Prop :=
  (b.expecting ≠ .nothing ∧ b.stack ≠ []) ∨ (b.expecting = .nothing ∧ ∀ v, b.result ≠ .flag v)

theorem opened_put {b : Build} {d : Document} (h : b.stack ≠ [] ∨ ∀ v, d ≠ .flag v) :
    Opened (b.put d) := by
  obtain ⟨stack, expecting, result⟩ := b
  cases stack with
  | nil => exact .inr ⟨rfl, h.resolve_left fun hne => hne rfl⟩
  | cons frame rest => cases frame <;> exact .inl (by simp [Build.put])

theorem opened_enter (b : Build) {f : Frame} {e : Expecting} (h : e ≠ .nothing) :
    Opened (b.enter f e) :=
  .inl ⟨h, by simp [Build.enter]⟩

theorem opened_close {b b' : Build} {isArray : Bool} (h : b.close isArray = some b') :
    Opened b' := by
  unfold Build.close at h
  split at h
  · cases h
    exact opened_put (.inr fun _ hd => by cases hd)
  · cases h
    exact opened_put (.inr fun _ hd => by cases hd)
  · cases h

theorem opened_name {b b' : Build} {key : Document} (h : b.name key = some b') : Opened b' := by
  unfold Build.name at h
  split at h
  · cases h
    exact .inl (by simp)
  · cases h

theorem opened_next {b b' : Build} (h : b.next = some b') : Opened b' := by
  unfold Build.next at h
  split at h
  · next hstack =>
    cases h
    exact .inl (by simp [hstack])
  · next hstack =>
    cases h
    exact .inl (by simp [hstack])
  · cases h

theorem opened_step {b b' : Build} {t : Token} (hb : Opened b) (h : b.step t = some b') :
    Opened b' := by
  -- Only what is still open takes another token.
  obtain ⟨_, hopen⟩ := hb.resolve_right fun ⟨hnothing, _⟩ => by
    simp [Build.step, hnothing] at h
  unfold Build.step at h
  split at h
  case h_1 | h_4 => cases h; exact opened_put (.inl hopen)
  case h_2 | h_3 | h_5 | h_6 => cases h; exact opened_enter b (by simp)
  case h_7 | h_10 | h_13 | h_14 => exact opened_close h
  case h_8 | h_9 =>
    split at h
    · exact opened_name h
    · cases h
  case h_11 => cases h; exact .inl ⟨by simp, hopen⟩
  case h_12 => exact opened_next h
  case h_15 => cases h

theorem opened_run {b b' : Build} {ts : List Token} (hb : Opened b)
    (h : ts.foldlM Build.step b = some b') : Opened b' := by
  induction ts generalizing b with
  | nil =>
    cases h
    exact hb
  | cons t rest ih =>
    obtain ⟨b₁, hstep, hrest⟩ := Option.bind_eq_some_iff.1 h
    exact ih (opened_step hb hstep) hrest

/-- A truth value is made of one token. -/
theorem tokens?_of_outline_flag {s : String} {v : Bool} (h : outline s reals = some (.flag v)) :
    tokens? reals s = some [.scalar (.flag v)] := by
  unfold outline at h
  obtain ⟨ts, hts, h⟩ := Option.bind_eq_some_iff.1 h
  obtain ⟨⟨stack, expecting, result⟩, hbuild, h⟩ := Option.bind_eq_some_iff.1 h
  obtain ⟨rfl, rfl⟩ : expecting = .nothing ∧ result = .flag v := by
    cases expecting <;> simp_all
  rw [hts]
  cases ts with
  | nil => cases hbuild
  | cons t rest =>
    obtain ⟨b, hstep, hrest⟩ := Option.bind_eq_some_iff.1 hbuild
    have hclosed : ¬ Opened b := fun hb => by
      rcases opened_run hb hrest with ⟨hopen, _⟩ | ⟨_, hother⟩
      · exact hopen rfl
      · exact hother v rfl
    cases t with
    | scalar d =>
      cases hstep
      cases rest with
      | nil =>
        cases hrest
        rfl
      | cons t' rest => cases hrest
    | arrayStart | objectStart =>
      cases hstep
      exact absurd (opened_enter _ (by simp)) hclosed
    | arrayEnd | objectEnd | comma | colon => cases hstep

/-! ### One step of the tokenizer -/

/-- Inside of a text. -/
def Mode.isText : Mode → Bool
  | .between | .word _ => false
  | _ => true

namespace Scan
variable {s s' : Scan} {c : Char} {cs : List Char}

/-- How many tokens there are, with one that is not complete. -/
def found (s : Scan) : Nat :=
  match s.mode with
  | .between | .word [] => s.tokens.length
  | _ => s.tokens.length + 1

theorem found_of_isText (h : s.mode.isText = true) : s.found = s.tokens.length + 1 := by
  unfold found
  unfold Mode.isText at h
  split at h
  · cases h
  · cases h
  · split
    · simp_all
    · simp_all
    · rfl

theorem inText_cases {tokens : List Token} {chars : Spelling}
    (h : inText tokens chars c = some s') :
    (s'.mode.isText = true ∧ s'.tokens = tokens) ∨
      ∃ chars, s' = ⟨.between, .scalar (ofSpelling chars) :: tokens⟩ := by
  unfold inText at h
  split at h
  · exact .inr ⟨chars, (Option.some.inj h).symm⟩
  · split at h
    · cases h
      exact .inl ⟨rfl, rfl⟩
    · split at h
      · cases h
      · cases h
        exact .inl ⟨rfl, rfl⟩

theorem inEscape_isText {tokens : List Token} {chars : Spelling}
    (h : inEscape tokens chars c = some s') : s'.mode.isText = true ∧ s'.tokens = tokens := by
  unfold inEscape at h
  split at h
  · cases h
    exact ⟨rfl, rfl⟩
  · obtain ⟨_, -, rfl⟩ := Option.map_eq_some_iff.1 h
    exact ⟨rfl, rfl⟩

theorem isText_afterCode (chars : Spelling) (high : Option Nat) (value : Nat) :
    (afterCode chars high value).isText = true := by
  unfold afterCode
  dsimp only
  repeat' split
  all_goals rfl

/-- A text goes on, or it ends and is a token. -/
theorem step_of_isText (hs : s.mode.isText = true) (h : s.step reals c = some s') :
    (s'.mode.isText = true ∧ s'.tokens = s.tokens) ∨
      ∃ chars, s' = ⟨.between, .scalar (ofSpelling chars) :: s.tokens⟩ := by
  unfold Scan.step at h
  split at h
  case h_1 hmode | h_2 hmode => rw [hmode] at hs; cases hs
  case h_3 => exact inText_cases h
  case h_4 => exact .inl (inEscape_isText h)
  case h_5 =>
    obtain ⟨digit, -, h⟩ := Option.bind_eq_some_iff.1 h
    dsimp only at h
    split at h
    · cases h
      exact .inl ⟨rfl, rfl⟩
    · cases h
      exact .inl ⟨isText_afterCode .., rfl⟩
  case h_6 =>
    split at h
    · cases h
      exact .inl ⟨rfl, rfl⟩
    · exact inText_cases h
  case h_7 =>
    split at h
    · cases h
      exact .inl ⟨rfl, rfl⟩
    · exact .inl (inEscape_isText h)

/-- Between tokens, a space does nothing and anything else begins a token. -/
theorem outside_nil {tokens : List Token} (h : outside reals tokens [] c = some s') :
    tokens <:+ s'.tokens ∧
      if isSpace c then s' = ⟨.between, tokens⟩ else tokens.length < s'.found := by
  unfold outside at h
  simp only [List.isEmpty_nil, if_true, Option.bind_eq_bind, Option.bind_some] at h
  split at h
  · next hspace =>
    cases h
    exact ⟨List.suffix_rfl, by rw [if_pos hspace]⟩
  · next hspace =>
    rw [if_neg hspace]
    split at h
    · cases h
      exact ⟨List.suffix_rfl, Nat.lt_succ_self _⟩
    · split at h
      · cases h
        exact ⟨List.suffix_cons .., Nat.lt_succ_self _⟩
      · cases h
        exact ⟨List.suffix_rfl, Nat.lt_succ_self _⟩

/-- What ends a word completes its token, and anything but a space begins another. -/
theorem outside_word {tokens : List Token} {letters : List Char} (hletters : letters ≠ [])
    (hend : isWordChar c = false) (h : outside reals tokens letters c = some s') :
    ∃ t, word? reals letters.reverse = some t ∧ tokens <:+ s'.tokens ∧
      if isSpace c then s' = ⟨.between, t :: tokens⟩ else tokens.length + 1 < s'.found := by
  unfold outside at h
  rw [if_neg (by simpa using hletters)] at h
  obtain ⟨finished, hfinished, h⟩ := Option.bind_eq_some_iff.1 h
  obtain ⟨t, ht, rfl⟩ := Option.map_eq_some_iff.1 hfinished
  refine ⟨t, ht, ?_⟩
  split at h
  · next hspace =>
    cases h
    exact ⟨List.suffix_cons .., by rw [if_pos hspace]⟩
  · next hspace =>
    rw [if_neg hspace]
    split at h
    · cases h
      exact ⟨List.suffix_cons .., Nat.lt_succ_self _⟩
    · next hquote =>
      split at h
      · cases h
        exact ⟨(List.suffix_cons ..).trans (List.suffix_cons ..), Nat.lt_succ_self _⟩
      · next hmark => simp [isWordChar, hspace, hquote, hmark] at hend

/-- A word goes on, or it ends and is a token. -/
theorem word_grows {tokens : List Token} {letters : List Char}
    (h : (Scan.mk (.word letters) tokens).step reals c = some s') :
    tokens <:+ s'.tokens ∧ (Scan.mk (.word letters) tokens).found ≤ s'.found := by
  simp only [Scan.step] at h
  split at h
  · next hend =>
    cases letters with
    | nil =>
      obtain ⟨hsuffix, hfound⟩ := outside_nil h
      refine ⟨hsuffix, ?_⟩
      split at hfound
      · rw [hfound]; exact le_rfl
      · exact Nat.le_of_lt hfound
    | cons letter letters =>
      obtain ⟨t, -, hsuffix, hfound⟩ := outside_word (by simp) (by simp [isWordChar, hend]) h
      refine ⟨hsuffix, ?_⟩
      split at hfound
      · rw [hfound]; exact le_rfl
      · exact Nat.le_of_lt hfound
  · cases h
    refine ⟨List.suffix_rfl, ?_⟩
    cases letters with
    | nil => exact Nat.le_succ _
    | cons letter letters => exact le_rfl

/-- **No step loses a token**, complete or not, and between tokens what is no space adds one. -/
theorem step_grows (h : s.step reals c = some s') : s.tokens <:+ s'.tokens ∧ s.found ≤ s'.found ∧
    (s.mode = .between → isSpace c = false → s.found < s'.found) := by
  by_cases htext : s.mode.isText = true
  · rw [found_of_isText htext]
    rcases step_of_isText htext h with ⟨htext', htokens⟩ | ⟨chars, rfl⟩
    · rw [found_of_isText htext', htokens]
      exact ⟨List.suffix_rfl, le_rfl, fun hmode => by rw [hmode] at htext; cases htext⟩
    · exact ⟨List.suffix_cons .., le_rfl, fun hmode => by rw [hmode] at htext; cases htext⟩
  obtain ⟨mode, tokens⟩ := s
  cases mode with
  | between =>
    have hfirst : outside reals tokens [] c = some s' := h
    obtain ⟨hsuffix, hfound⟩ := outside_nil hfirst
    cases hspace : isSpace c with
    | true =>
      rw [hspace, if_pos rfl] at hfound
      exact ⟨hsuffix, by rw [hfound], fun _ hnot => by cases hnot⟩
    | false =>
      rw [hspace, if_neg Bool.false_ne_true] at hfound
      exact ⟨hsuffix, Nat.le_of_lt hfound, fun _ _ => hfound⟩
  | word letters =>
    obtain ⟨hsuffix, hfound⟩ := word_grows h
    exact ⟨hsuffix, hfound, fun hmode => by cases hmode⟩
  | text | escape | code | half | halfEscape => exact absurd rfl htext

/-! ### A run of the tokenizer -/

theorem run_grows (h : cs.foldlM (Scan.step reals) s = some s') : s.found ≤ s'.found := by
  induction cs generalizing s with
  | nil =>
    cases h
    exact le_rfl
  | cons c rest ih =>
    obtain ⟨s₁, hstep, hrest⟩ := Option.bind_eq_some_iff.1 h
    exact (step_grows hstep).2.1.trans (ih hrest)

/-- Between tokens, only spaces add none. -/
theorem run_adds (hmode : s.mode = .between) (hcs : ∃ c ∈ cs, isSpace c = false)
    (h : cs.foldlM (Scan.step reals) s = some s') : s.found < s'.found := by
  induction cs generalizing s with
  | nil =>
    obtain ⟨_, hmem, _⟩ := hcs
    cases hmem
  | cons c rest ih =>
    obtain ⟨s₁, hstep, hrest⟩ := Option.bind_eq_some_iff.1 h
    cases hspace : isSpace c with
    | false => exact ((step_grows hstep).2.2 hmode hspace).trans_le (run_grows hrest)
    | true =>
      obtain ⟨mode, tokens⟩ := s
      cases hmode
      have hfirst : outside reals tokens [] c = some s₁ := hstep
      obtain ⟨-, hsame⟩ := outside_nil hfirst
      rw [if_pos hspace] at hsame
      obtain ⟨d, hd, hother⟩ := hcs
      rcases List.mem_cons.1 hd with rfl | hd
      · rw [hspace] at hother
        cases hother
      · rw [hsame] at hrest
        exact ih rfl ⟨d, hd, hother⟩ hrest

/-- The first token, complete or not, is no truth value. -/
def StartsOtherwise (s : Scan) : Prop :=
  (s.tokens = [] ∧ s.mode.isText = true) ∨
    ∃ t, s.tokens.getLast? = some t ∧ ∀ v, t ≠ .scalar (.flag v)

theorem ofSpelling_ne_flag (chars : Spelling) (v : Bool) : ofSpelling chars ≠ .flag v := by
  cases chars <;> simp [ofSpelling, unreadable]

theorem StartsOtherwise.step (hs : s.StartsOtherwise) (h : s.step reals c = some s') :
    s'.StartsOtherwise := by
  rcases hs with ⟨hnone, htext⟩ | ⟨t, ht, hother⟩
  · rcases step_of_isText htext h with ⟨htext', htokens⟩ | ⟨chars, rfl⟩
    · exact .inl ⟨htokens.trans hnone, htext'⟩
    · refine .inr ⟨_, by rw [hnone]; rfl, fun v hv => ?_⟩
      exact ofSpelling_ne_flag chars v (Token.scalar.inj hv)
  · obtain ⟨more, hmore⟩ := (step_grows h).1
    exact .inr ⟨t, by rw [← hmore, List.getLast?_append, ht, Option.some_or], hother⟩

theorem StartsOtherwise.run (hs : s.StartsOtherwise)
    (h : cs.foldlM (Scan.step reals) s = some s') : s'.StartsOtherwise := by
  induction cs generalizing s with
  | nil =>
    cases h
    exact hs
  | cons c rest ih =>
    obtain ⟨s₁, hstep, hrest⟩ := Option.bind_eq_some_iff.1 h
    exact ih (hs.step hstep) hrest

/-- What begins with a quote or a mark begins with no truth value. -/
theorem startsOtherwise_of_first (hspace : isSpace c = false) (hword : isWordChar c = false)
    (h : Scan.step reals {} c = some s') : s'.StartsOtherwise := by
  simp only [Scan.step, outside, List.isEmpty_nil, if_true, Option.bind_eq_bind, Option.bind_some,
    hspace, Bool.false_eq_true, if_false] at h
  split at h
  · cases h
    exact .inl ⟨rfl, rfl⟩
  · next hquote =>
    split at h
    · next mark hmark =>
      cases h
      refine .inr ⟨mark, rfl, fun v hv => ?_⟩
      subst hv
      unfold punctuation? at hmark
      split at hmark <;> cases hmark
    · next hmark => simp [isWordChar, hspace, hquote, hmark] at hword

end Scan

/-! ### The word of a truth value -/

theorem step_word_end {letters : List Char} {found : List Token} {c : Char}
    (hend : isWordChar c = false) :
    Scan.step reals ⟨.word letters, found⟩ c = outside reals found letters c := by
  rw [isWordChar, Bool.not_eq_false'] at hend
  simp only [Scan.step, hend, if_true]

/-- Before what is no space, a word is one token of several. -/
theorem found_after_word {word more : List Char} {s : Scan} {c : Char} (hne : word ≠ [])
    (hend : isWordChar c = false) (hmore : isSpace c = true → ∃ d ∈ more, isSpace d = false)
    (h : (c :: more).foldlM (Scan.step reals) ⟨.word word, []⟩ = some s) : 1 < s.found := by
  obtain ⟨s₁, hstep, hrest⟩ := Option.bind_eq_some_iff.1 h
  rw [step_word_end hend] at hstep
  obtain ⟨t, -, -, hfound⟩ := Scan.outside_word hne hend hstep
  split at hfound
  · next hspace =>
    rw [hfound] at hrest
    exact Scan.run_adds rfl (hmore hspace) hrest
  · exact Nat.lt_of_lt_of_le hfound (Scan.run_grows hrest)

/-- A word, and what follows it. -/
theorem exists_word_append {c : Char} (h : isWordChar c = true) (rest : List Char) :
    ∃ word more, c :: rest = word ++ more ∧ word ≠ [] ∧ (∀ d ∈ word, isWordChar d = true) ∧
      ∀ d ∈ more.head?, isWordChar d = false := by
  refine ⟨(c :: rest).takeWhile isWordChar, (c :: rest).dropWhile isWordChar,
    List.takeWhile_append_dropWhile.symm, by simp [h], fun d => List.mem_takeWhile_imp, ?_⟩
  intro d hd
  simpa [Option.mem_def.1 hd] using List.head?_dropWhile_not isWordChar (c :: rest)

/-- What the last word of a text stands for is found at its end. -/
theorem word?_of_scan {word : List Char} {t : Token} (hne : word ≠ [])
    (hchars : ∀ d ∈ word, isWordChar d = true)
    (h : (word ++ [' ']).foldlM (Scan.step reals) {} = some ⟨.between, [t]⟩) :
    word? reals word = some t := by
  rw [List.foldlM_append, foldlM_begun hne hchars] at h
  have hstep : Scan.step reals ⟨.word word.reverse, []⟩ ' ' = some ⟨.between, [t]⟩ := by
    rw [← h]
    exact (bind_pure _).symm
  rw [step_word_end (by decide)] at hstep
  obtain ⟨t', ht', -, hfound⟩ := Scan.outside_word (by simpa using hne) (by decide) hstep
  rw [if_pos (by decide)] at hfound
  cases hfound
  rwa [List.reverse_reverse] at ht'

/-- What comes after a word is more than spaces, for a text without outer blanks ends with none. -/
theorem exists_not_space {word more : List Char} {d : Char}
    (htrim : Text.trimChars (word ++ d :: more) = word ++ d :: more) (hd : isSpace d = true) :
    ∃ e ∈ more ++ [' '], isSpace e = false := by
  rcases List.eq_nil_or_concat more with rfl | ⟨front, e, rfl⟩
  · rw [last_not_space htrim] at hd
    cases hd
  · have hlast : Text.trimChars ((word ++ d :: front) ++ [e]) = (word ++ d :: front) ++ [e] := by
      simpa using htrim
    exact ⟨e, by simp, last_not_space hlast⟩

/-- A text without outer blanks that is one truth value is one word. -/
theorem word?_of_tokens {s : String} {v : Bool} (htrim : Text.trimChars s.toList = s.toList)
    (h : tokens? reals s = some [.scalar (.flag v)]) :
    word? reals s.toList = some (.scalar (.flag v)) := by
  unfold tokens? at h
  split at h
  case h_2 => cases h
  next final hscan =>
  obtain rfl : final = [.scalar (.flag v)] := by
    rw [Option.some.injEq, List.reverse_eq_iff] at h
    exact h
  generalize s.toList = cs at htrim hscan ⊢
  cases cs with
  | nil => cases hscan
  | cons c rest =>
    have hspace := head_not_space htrim
    cases hword : isWordChar c with
    | false =>
      obtain ⟨s₁, hstep, hrest⟩ := Option.bind_eq_some_iff.1 hscan
      have hother := (Scan.startsOtherwise_of_first hspace hword hstep).run hrest
      rcases hother with ⟨hnone, _⟩ | ⟨t, ht, hother⟩
      · cases hnone
      · cases ht
        exact absurd rfl (hother v)
    | true =>
      obtain ⟨word, more, hsplit, hne, hchars, hend⟩ := exists_word_append hword rest
      rw [hsplit] at htrim hscan ⊢
      cases more with
      | nil =>
        rw [List.append_nil] at hscan ⊢
        exact word?_of_scan hne hchars hscan
      | cons d more =>
        have hmore := exists_not_space htrim
        rw [List.append_assoc, List.foldlM_append, foldlM_begun hne hchars] at hscan
        have hfound := found_after_word (by simpa using hne) (hend d rfl) hmore hscan
        exact absurd hfound (lt_irrefl 1)

/-- A number's literal is no truth value. -/
theorem number?_ne_flag {cs : List Char} {v : Bool} : number? reals cs ≠ some (.flag v) := by
  have hreal (negative : Bool) (l : Literal) : real reals negative l ≠ .flag v := by
    unfold real
    split <;> simp [unreadable]
  intro h
  unfold number? at h
  dsimp only at h
  generalize (if cs.head? == some '-' then cs.drop 1 else cs) = unsigned at h
  split at h
  · cases h
  · split at h
    · split at h
      · cases h
      · split at h
        · cases h
        · exact hreal _ _ (Option.some.inj h)
    · obtain ⟨d, -, hd⟩ := Option.map_eq_some_iff.1 h
      exact hreal _ _ hd

/-- **Without outer blanks there is one text for each truth value.** -/
theorem text_of_read_flag {s : String} {v : Bool} (htrim : Text.trim s = s)
    (h : read s reals = some (.flag v)) : s = if v then "true" else "false" := by
  have houtline := (Option.filter_eq_some_iff.1 h).1
  have hchars : Text.trimChars s.toList = s.toList := by
    rw [← String.toList_ofList (l := Text.trimChars s.toList)]
    exact congrArg String.toList htrim
  have hword := word?_of_tokens hchars (tokens?_of_outline_flag houtline)
  unfold word? at hword
  rw [String.ofList_toList] at hword
  split at hword
  · cases hword
  · cases hword
    rfl
  · cases hword
    rfl
  · obtain ⟨d, hd, hflag⟩ := Option.map_eq_some_iff.1 hword
    cases hflag
    exact absurd hd number?_ne_flag

end Lending.Json
