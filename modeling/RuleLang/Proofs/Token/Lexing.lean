import Mathlib.Data.Char
import RuleLang.Expr.Format
import RuleLang.Proofs.Calendar.Reading
import RuleLang.Proofs.Token.Spelling

/-!
# Spellings of single tokens

What a formatter writes for a token spells that token, in front of texts that do not take
its characters for their own.  `Closes rest ks` says that the text `rest`, which spells
tokens of the kinds `ks`, takes nothing away from a name or a number before it; `Opens cs`
says that the text `cs` takes nothing away from a symbol before it.
-/

namespace RuleLang

open Lexeme

/-! ### Boundaries -/

/-- Whether a text ends the word or number before it. -/
structure Closes (rest : List Char) (ks : List TokenKind) : Prop where
  word : ∀ c ∈ rest.head?, ¬isWordChar c
  point : ∀ c cs, rest = '.' :: c :: cs → ¬c.isDigit
  paren : beforeParen ks = false

/-- Whether a text ends the symbol before it. -/
def Opens (cs : List Char) : Prop := ∀ c ∈ cs.head?, c ≠ '=' ∧ c ≠ '>'

theorem closes_nil :
  Closes [] []
  := by
  constructor
  · rintro c ⟨⟩
  · rintro c cs ⟨⟩
  · rfl

/-! ### Words -/

/-- Whether a text is a word, of whatever kind. -/
structure IsWord (cs : List Char) : Prop where
  start : ∃ c rest, cs = c :: rest ∧ isWordStart c
  chars : ∀ c ∈ cs, isWordChar c

/-- A text is a word if a look at each of its characters says so. -/
theorem isWord_of_check {cs : List Char} (h : cs.head?.any isWordStart && cs.all isWordChar) :
  IsWord cs
  := by
  obtain ⟨hstart, hchars⟩ := Bool.and_eq_true_iff.mp h
  constructor
  · cases cs with
    | nil => contradiction
    | cons c rest => exact ⟨c, rest, rfl, hstart⟩
  · apply List.all_eq_true.mp hchars

/-- Whether a text is a name: a word that is no symbol and no truth value. -/
structure IsName (cs : List Char) : Prop extends IsWord cs where
  kind : wordKind cs = .word

theorem not_isSeparator_of_isWordStart {c : Char} (h : isWordStart c) :
  ¬isSeparator c
  := by
  intro hc
  simp only [isSeparator, decide_eq_true_eq] at hc
  obtain rfl | rfl | rfl | rfl := hc
  all_goals
    revert h
    decide

/-- A word spells what its kind makes of it. -/
theorem spells_word {cs rest : List Char} {k : TokenKind} {ks : List TokenKind}
    (hword : IsWord cs) (hrest : ∀ c ∈ rest.head?, ¬isWordChar c)
    (hkind : kindBefore (wordKind cs) cs ks = .ok k) (h : Spells rest ks) :
  Spells (cs ++ rest) (k :: ks)
  := by
  obtain ⟨⟨c, tail, rfl, hstart⟩, hchars⟩ := hword
  have htail := fun d hd => hchars d (List.mem_cons_of_mem c hd)
  apply Spells.lexeme (not_isSeparator_of_isWordStart hstart) _ hkind h
  rw [take, if_pos hstart, takeWhile_append_of_head htail hrest]

/-- A name that stands before no parenthesis spells itself. -/
theorem spells_ident {cs rest : List Char} {ks : List TokenKind} (hname : IsName cs)
    (hrest : Closes rest ks) (h : Spells rest ks) :
  Spells (cs ++ rest) (.ident (String.ofList cs) :: ks)
  := by
  apply spells_word hname.toIsWord hrest.word _ h
  rw [hname.kind, kindBefore, hrest.paren]
  rfl

/-- A name before a parenthesis is that of a function. -/
theorem spells_functionName {cs rest : List Char} {ks : List TokenKind} (hname : IsName cs)
    (h : Spells ('(' :: rest) (.symbol .leftParen :: ks)) :
  Spells (cs ++ '(' :: rest) (.functionName (String.ofList cs) :: .symbol .leftParen :: ks)
  := by
  apply spells_word hname.toIsWord _ _ h
  · rintro c ⟨⟩
    decide
  · rw [hname.kind]
    rfl

/-! ### Symbols -/

/-- In front of a text that takes nothing away from a symbol, a spelling is the first that
fits. -/
theorem find?_spelling {rest : List Char} (hrest : Opens rest) :
  ∀ p ∈ Symbol.spellings, Symbol.spellings.find? (·.1.isPrefixOf (p.1 ++ rest)) = some p
  := by
  cases rest with
  | nil => decide
  | cons c rest =>
    obtain ⟨hequal, hgreater⟩ := hrest c rfl
    have hequal : ('=' == c) = false := beq_eq_false_iff_ne.mpr (Ne.symm hequal)
    have hgreater : ('>' == c) = false := beq_eq_false_iff_ne.mpr (Ne.symm hgreater)
    simp [Symbol.spellings, List.find?, List.isPrefixOf, hequal, hgreater]

/-- The first spelling that fits spells its symbol. -/
theorem spells_of_find? {text rest : List Char} {s : Symbol} {ks : List TokenKind}
    (hfind : Symbol.spellings.find? (·.1.isPrefixOf (text ++ rest)) = some (text, s))
    (h : Spells rest ks) :
  Spells (text ++ rest) (.symbol s :: ks)
  := by
  have hs := List.mem_of_find?_eq_some hfind
  have hne : ∀ p ∈ Symbol.spellings, p.1 ≠ [] := by decide
  have hother : ∀ p ∈ Symbol.spellings, p.1.head?.all fun c =>
      ¬isSeparator c ∧ ¬isWordStart c ∧ ¬c.isDigit ∧ ¬(c = '"' ∨ c = '\'') ∧ ¬c = '#' := by
    decide
  cases text with
  | nil => cases hne _ hs rfl
  | cons c cs =>
    obtain ⟨hseparator, hword, hdigit, hquote, hhash⟩ := of_decide_eq_true (hother _ hs)
    apply Spells.lexeme hseparator _ _ h
    · exact .symbol s
    · rw [take, if_neg hword, if_neg hdigit, if_neg hquote, if_neg hhash]
      rw [← List.cons_append, hfind]
    · rfl

/-- A spelling of a symbol spells it. -/
theorem spells_symbol {text rest : List Char} {s : Symbol} {ks : List TokenKind}
    (hs : (text, s) ∈ Symbol.spellings) (hrest : Opens rest) (h : Spells rest ks) :
  Spells (text ++ rest) (.symbol s :: ks)
  := spells_of_find? (find?_spelling hrest _ hs) h

/-! ### Numbers -/

/-- The decimal text of an integer that is not negative. -/
theorem toList_text {n : Int64} (hn : 0 ≤ n.toInt) :
  (Word.text n).toList = Decimal.digitsOf n.toInt.toNat
  := by
  obtain ⟨m, hm⟩ := Int.eq_ofNat_of_zero_le hn
  rw [Word.text, hm]
  apply Nat.toList_repr

theorem not_isSeparator_of_isDigit {c : Char} (h : c.isDigit) :
  ¬isSeparator c
  := by
  intro hc
  simp only [isSeparator, decide_eq_true_eq] at hc
  obtain rfl | rfl | rfl | rfl := hc
  all_goals
    revert h
    decide

theorem isWordChar_of_isDigit {c : Char} (h : c.isDigit) :
  isWordChar c
  := by
  rw [isWordChar, h, Bool.or_true]

theorem not_isWordStart_of_isDigit {c : Char} (h : c.isDigit) :
  ¬isWordStart c
  := by
  intro hstart
  unfold Char.isDigit at h
  unfold isWordStart Char.isAlpha Char.isUpper Char.isLower at hstart
  simp only [Bool.or_eq_true, Bool.and_eq_true, decide_eq_true_eq,
    UInt32.le_iff_toNat_le] at h hstart
  obtain (⟨hge, -⟩ | ⟨hge, -⟩) | rfl := hstart
  · have hge : 65 ≤ c.val.toNat := hge
    have hle : c.val.toNat ≤ 57 := h.2
    omega
  · have hge : 97 ≤ c.val.toNat := hge
    have hle : c.val.toNat ≤ 57 := h.2
    omega
  · revert h
    decide

/-- Digits in front of what ends a number spell an integer. -/
theorem numberPart_digits {digits rest : List Char} {ks : List TokenKind}
    (hdigits : AreDigits digits) (hrest : Closes rest ks) :
  numberPart (digits ++ rest) = (.integer, digits)
  := by
  have hwhole : (digits ++ rest).takeWhile Char.isDigit = digits :=
    takeWhile_append_of_head hdigits fun c hc hdigit =>
      hrest.word c hc (isWordChar_of_isDigit hdigit)
  unfold numberPart
  dsimp only
  rw [hwhole, List.drop_left]
  split
  · rename_i behind
    cases behind with
    | nil => rfl
    | cons c behind =>
      have hc := hrest.point c behind rfl
      simp [hc]
  · rfl

/-- An integer that is not negative is spelt by its decimal text. -/
theorem spells_int {n : Int64} {rest : List Char} {ks : List TokenKind} (hn : 0 ≤ n.toInt)
    (hrest : Closes rest ks) (h : Spells rest ks) :
  Spells ((Word.text n).toList ++ rest) (.int n :: ks)
  := by
  rw [toList_text hn]
  have hdigits := Decimal.areDigits_digitsOf n.toInt.toNat
  have hvalue := Decimal.digitsValue_digitsOf n.toInt.toNat
  have hne := Decimal.digitsOf_ne_nil n.toInt.toNat
  generalize Decimal.digitsOf n.toInt.toNat = digits at *
  cases digits with
  | nil => contradiction
  | cons c cs =>
    have hc := hdigits c List.mem_cons_self
    apply Spells.lexeme (not_isSeparator_of_isDigit hc) _ _ h
    · exact .integer
    · rw [take, if_neg (not_isWordStart_of_isDigit hc), if_pos hc, ← List.cons_append,
        numberPart_digits hdigits hrest]
    · have hn' : ((digitsValue (c :: cs) : Nat) : Int) = n.toInt := by
        rw [hvalue]
        apply Int.toNat_of_nonneg hn
      simp only [kindBefore, toKind, readInteger, hn', int64?_toInt]
      rfl

/-- Digits, a point and digits, in front of what ends a number, are a decimal. -/
theorem numberPart_decimal {whole fraction rest : List Char} {ks : List TokenKind}
    (hwhole : AreDigits whole) (hfraction : AreDigits fraction) (hne : fraction ≠ [])
    (hrest : Closes rest ks) :
  numberPart (whole ++ '.' :: fraction ++ rest) = (.decimal, whole ++ '.' :: fraction)
  := by
  have hfirst : (whole ++ '.' :: (fraction ++ rest)).takeWhile Char.isDigit = whole :=
    takeWhile_append_of_head hwhole (by rintro c ⟨⟩; decide)
  have hsecond : (fraction ++ rest).takeWhile Char.isDigit = fraction :=
    takeWhile_append_of_head hfraction fun c hc hdigit =>
      hrest.word c hc (isWordChar_of_isDigit hdigit)
  have hexponent : exponentPart rest = [] := by
    unfold exponentPart
    split
    · cases hrest.word 'e' rfl (by decide)
    · cases hrest.word 'E' rfl (by decide)
    · rfl
  have hempty : fraction.isEmpty = false := by simpa using hne
  rw [List.append_assoc, List.cons_append]
  unfold numberPart
  dsimp only
  rw [hfirst, List.drop_left]
  simp only [hsecond, List.drop_left, hempty, hexponent, List.append_nil, Bool.false_eq_true,
    if_false]

/-- A decimal is spelt by every text that it is read from. -/
theorem spells_float {x : Float} {whole fraction rest : List Char} {ks : List TokenKind}
    (hwhole : AreDigits whole) (hwhole' : whole ≠ []) (hfraction : AreDigits fraction)
    (hfraction' : fraction ≠ []) (hx : readDecimal (whole ++ '.' :: fraction) = .ok x)
    (hrest : Closes rest ks) (h : Spells rest ks) :
  Spells (whole ++ '.' :: fraction ++ rest) (.float x :: ks)
  := by
  have hnumber := numberPart_decimal hwhole hfraction hfraction' hrest
  cases whole with
  | nil => contradiction
  | cons c cs =>
    have hc := hwhole c List.mem_cons_self
    rw [List.cons_append] at hnumber hx ⊢
    apply Spells.lexeme (not_isSeparator_of_isDigit hc) _ _ h
    · exact .decimal
    · rw [take, if_neg (not_isWordStart_of_isDigit hc), if_pos hc, ← List.cons_append, hnumber]
    · rw [kindBefore, toKind, hx]
      rfl

/-! ### Strings -/

/-- A character is written as itself, or as a backslash and a letter that stands for it. -/
theorem escaped_cases
    (c : Char) :
  (quoteSource.escaped c = [c] ∧ c ≠ '"' ∧ c ≠ '\\')
    ∨ ∃ letter, quoteSource.escaped c = ['\\', letter] ∧ letter ≠ '\n'
      ∧ readEscapes.escapes.lookup letter = some c
  := by
  unfold quoteSource.escaped
  split
  · exact .inr ⟨_, rfl, by decide, rfl⟩
  · exact .inr ⟨_, rfl, by decide, rfl⟩
  · exact .inr ⟨_, rfl, by decide, rfl⟩
  · exact .inr ⟨_, rfl, by decide, rfl⟩
  · exact .inr ⟨_, rfl, by decide, rfl⟩
  · rename_i hquote hbackslash _ _ _
    exact .inl ⟨rfl, hquote, hbackslash⟩

/-- The inside of a quoted text ends at its closing quote. -/
theorem stringPart_escaped
    (cs rest : List Char) :
  stringPart '"' (cs.flatMap quoteSource.escaped ++ '"' :: rest)
    = (cs.flatMap quoteSource.escaped, true)
  := by
  induction cs with
  | nil =>
    cases rest with
    | nil => rfl
    | cons c rest => rfl
  | cons c cs ih =>
    rw [List.flatMap_cons, List.append_assoc]
    obtain ⟨hc, hquote, hbackslash⟩ | ⟨letter, hc, hletter, -⟩ := escaped_cases c
    · rw [hc]
      apply stringPart_cons hquote hbackslash ih
    · rw [hc]
      exact stringPart_escape (by decide) hletter ih

/-- The inside of a quoted text stands for the text. -/
theorem readEscapes_escaped
    (before : Nat) (cs : List Char) :
  readEscapes before (cs.flatMap quoteSource.escaped) = .ok cs
  := by
  induction cs generalizing before with
  | nil => rfl
  | cons c cs ih =>
    rw [List.flatMap_cons]
    obtain ⟨hc, hquote, hbackslash⟩ | ⟨letter, hc, -, hletter⟩ := escaped_cases c
    · rw [hc, List.singleton_append, readEscapes, ih]
      · rfl
      · rintro rfl
        contradiction
      · rintro d rest rfl
        contradiction
    · rw [hc]
      change readEscapes before ('\\' :: letter :: cs.flatMap quoteSource.escaped) = _
      rw [readEscapes, hletter, ih]
      rfl

/-- A quoted text spells the text as a string. -/
theorem spells_str {s : String} {rest : List Char} {ks : List TokenKind} (h : Spells rest ks) :
  Spells (quoteSource s.toList ++ rest) (.str s :: ks)
  := by
  have hinside := stringPart_escaped s.toList rest
  rw [quoteSource]
  apply Spells.lexeme (by decide) _ _ h
  · exact .string
  · rw [take, if_neg (by decide), if_neg (by decide), if_pos (by decide), List.append_assoc,
      List.singleton_append, hinside]
  · simp only [kindBefore, toKind, readString, List.drop_succ_cons, List.drop_zero,
      List.dropLast_concat, readEscapes_escaped]
    simp [Except.map, String.ofList_toList]

/-! ### Dates -/

/-- Whether a character is no number sign, no line feed and no blank. -/
def isPlain (c : Char) : Bool := c ≠ '#' && c ≠ '\n' && !Text.isBlank c

theorem isPlain_of_isStampChar {c : Char} (h : isStampChar c ∨ c = 'T') :
  isPlain c
  := by
  simp only [isStampChar, Bool.or_eq_true, decide_eq_true_eq] at h
  obtain ((((hdigit | rfl) | rfl) | rfl) | rfl) | rfl := h
  · have hblank := Scan.not_isBlank_of_isDigit hdigit
    have hhash : c ≠ '#' := by
      rintro rfl
      cases hdigit
    have hline : c ≠ '\n' := by
      rintro rfl
      cases hdigit
    simp [isPlain, hhash, hline, hblank]
  all_goals decide

theorem dropWhile_eq_self {p : Char → Bool} {cs : List Char} (h : ∀ c ∈ cs, ¬p c) :
  cs.dropWhile p = cs
  := by
  cases cs with
  | nil => rfl
  | cons c cs => rw [List.dropWhile_cons_of_neg (h c List.mem_cons_self)]

/-- A text none of whose characters satisfies a test keeps its end. -/
theorem dropEndWhile_eq_self {p : Char → Bool} {cs : List Char} (h : ∀ c ∈ cs, ¬p c) :
  Text.dropEndWhile p cs = cs
  := by
  rw [Text.dropEndWhile, dropWhile_eq_self, List.reverse_reverse]
  intro c hc
  apply h c (List.mem_reverse.mp hc)

/-- The text between number signs is found. -/
theorem inside_of_date {cs : List Char} (h : ∀ c ∈ cs, isPlain c) :
  Text.trim (Text.trimWhile (· = '#') ('#' :: (cs ++ ['#']))) = cs
  := by
  have hhash : ∀ c ∈ cs, ¬decide (c = '#') := by
    intro c hc
    have hc := h c hc
    simp only [isPlain, Bool.and_eq_true, decide_eq_true_eq] at hc
    simpa using hc.1.1
  have hblank : ∀ c ∈ cs, ¬Text.isBlank c := by
    intro c hc
    have hc := h c hc
    simp only [isPlain, Bool.and_eq_true] at hc
    simpa using hc.2
  have hsigns : Text.trimWhile (· = '#') ('#' :: (cs ++ ['#'])) = cs := by
    rw [Text.trimWhile, List.dropWhile_cons_of_pos rfl]
    cases cs with
    | nil => rfl
    | cons c cs =>
      have hhead := List.dropWhile_cons_of_neg (p := (decide <| · = '#'))
        (hhash c List.mem_cons_self) (l := cs ++ ['#'])
      rw [List.cons_append, hhead, ← List.cons_append, Text.dropEndWhile, List.reverse_concat,
        List.dropWhile_cons_of_pos rfl]
      apply dropEndWhile_eq_self hhash
  rw [hsigns, Text.trim, Text.trimWhile, dropWhile_eq_self hblank, dropEndWhile_eq_self hblank]

/-- Between number signs a text spells the token that is read from it. -/
theorem spells_date {cs rest : List Char} {k : TokenKind} {ks : List TokenKind}
    (hplain : ∀ c ∈ cs, isPlain c) (hk : readDate ('#' :: (cs ++ ['#'])) = .ok k)
    (h : Spells rest ks) :
  Spells ('#' :: (cs ++ ['#']) ++ rest) (k :: ks)
  := by
  have hinside : (cs ++ '#' :: rest).takeWhile (fun d => d ≠ '#' ∧ d ≠ '\n') = cs := by
    apply takeWhile_append_of_head
    · intro c hc
      have hc := hplain c hc
      simp only [isPlain, Bool.and_eq_true, decide_eq_true_eq] at hc
      simpa using hc.1
    · rintro c ⟨⟩
      simp
  apply Spells.lexeme (by decide) _ _ h
  · exact .date
  · rw [take, if_neg (by decide), if_neg (by decide), if_neg (by decide), if_pos rfl,
      List.append_assoc, List.singleton_append]
    dsimp only
    rw [hinside, List.drop_left]
    rfl
  · apply hk

/-- A day is spelt by its text between number signs. -/
theorem spells_dateOf {d : Date} {rest : List Char} {ks : List TokenKind} (h : Spells rest ks) :
  Spells ('#' :: (d.text ++ ['#']) ++ rest) (.date d :: ks)
  := by
  have hplain : ∀ c ∈ d.text, isPlain c :=
    fun c hc => isPlain_of_isStampChar (.inl (d.isStamp_text c hc))
  apply spells_date hplain _ h
  have hT : ¬(d.text.contains 'T' ∨ d.text.contains ' ') := by
    simp only [List.contains_iff_mem]
    rintro (hmem | hmem)
    · cases d.isStamp_text _ hmem
    · cases d.isStamp_text _ hmem
  rw [readDate, inside_of_date hplain]
  rw [if_neg hT, Date.read_text]

/-- A date-time is spelt by its text between number signs. -/
theorem spells_dateTimeOf {t : DateTime} {rest : List Char} {ks : List TokenKind}
    (h : Spells rest ks) :
  Spells ('#' :: (t.text ++ ['#']) ++ rest) (.dateTime t :: ks)
  := by
  have hplain : ∀ c ∈ t.text, isPlain c :=
    fun c hc => isPlain_of_isStampChar (DateTime.isStampChar_of_mem_text hc)
  apply spells_date hplain _ h
  have hT : t.text.contains 'T' ∨ t.text.contains ' ' := by
    left
    simp [DateTime.text]
  rw [readDate, inside_of_date hplain]
  rw [if_pos hT, DateTime.read?_text]

end RuleLang
