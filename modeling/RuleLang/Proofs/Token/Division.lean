import Mathlib.Data.List.Infix
import RuleLang.Proofs.Token.Tiling

/-!
# Division of a part of a text

Which lexeme is taken depends on the text behind it, but only as far as that could make the
lexeme longer.  So a lexeme is also taken from a text that ends earlier, if not inside the lexeme
(`take_of_isPrefix`).  `Divides before part behind ls` says that the part of a text between
`before` and `behind` is divided into blanks and the lexemes `ls`, and `scan` either divides a
text as a whole or a part of it up to a character at which no lexeme begins.
-/

namespace RuleLang.Lexeme

/-! ### Lexemes of shorter texts -/

/-- The characters that satisfy a test are the same in a text that ends earlier, if not inside
them. -/
theorem takeWhile_of_isPrefix {p : Char → Bool} {short long : List Char} (h : short <+: long)
    (htaken : long.takeWhile p <+: short) :
  short.takeWhile p = long.takeWhile p
  := by
  induction short generalizing long with
  | nil => rw [List.prefix_nil.mp htaken, List.takeWhile_nil]
  | cons c short ih =>
    obtain ⟨behind, rfl⟩ := h
    rw [List.cons_append] at htaken ⊢
    by_cases hc : p c
    · rw [List.takeWhile_cons_of_pos hc] at htaken ⊢
      rw [List.takeWhile_cons_of_pos hc, ih (List.prefix_append _ _)]
      exact (List.cons_prefix_cons.mp htaken).2
    · rw [List.takeWhile_cons_of_neg hc, List.takeWhile_cons_of_neg hc]

/-- What is left of a text behind the same beginning ends earlier too. -/
theorem drop_isPrefix_drop {short long : List Char} (n : Nat) (h : short <+: long) :
  short.drop n <+: long.drop n
  := by
  obtain ⟨behind, rfl⟩ := h
  rw [List.drop_append]
  apply List.prefix_append

theorem isPrefix_drop_of_append {taken more short : List Char} (h : taken ++ more <+: short) :
  more <+: short.drop taken.length
  := by
  obtain ⟨behind, rfl⟩ := h
  rw [List.append_assoc, List.drop_left]
  apply List.prefix_append

/-- The sign at the front of a text, if there is one. -/
def signPart (cs : List Char) : List Char := (cs.take 1).filter fun c => c = '+' ∨ c = '-'

/-- An exponent is a mark, a sign and digits, or nothing if there are no digits. -/
theorem exponentPart_cons {mark : Char} (hmark : mark = 'e' ∨ mark = 'E') (cs : List Char) :
  exponentPart (mark :: cs)
    = if ((cs.drop (signPart cs).length).takeWhile Char.isDigit).isEmpty then []
      else mark :: (signPart cs ++ (cs.drop (signPart cs).length).takeWhile Char.isDigit)
  := by
  cases cs with
  | nil => obtain rfl | rfl := hmark <;> rfl
  | cons c cs =>
    by_cases hplus : c = '+'
    · subst hplus
      obtain rfl | rfl := hmark <;> rfl
    · by_cases hminus : c = '-'
      · subst hminus
        obtain rfl | rfl := hmark <;> rfl
      · have hsign : signPart (c :: cs) = [] := by simp [signPart, hplus, hminus]
        rw [hsign]
        obtain rfl | rfl := hmark <;> simp [exponentPart, hplus, hminus]

theorem exponentPart_of_no_mark {c : Char} (hc : ¬(c = 'e' ∨ c = 'E')) (cs : List Char) :
  exponentPart (c :: cs) = []
  := by
  obtain ⟨he, hE⟩ := not_or.mp hc
  unfold exponentPart
  split
  · rename_i heq
    exact absurd (List.cons.inj heq).1 he
  · rename_i heq
    exact absurd (List.cons.inj heq).1 hE
  · rfl

theorem signPart_of_isPrefix {short long : List Char} (h : short <+: long) (hne : short ≠ []) :
  signPart short = signPart long
  := by
  obtain ⟨behind, rfl⟩ := h
  cases short with
  | nil => contradiction
  | cons c short => rfl

theorem exponentPart_of_isPrefix {short long : List Char} (h : short <+: long)
    (htaken : exponentPart long <+: short) :
  exponentPart short = exponentPart long
  := by
  cases short with
  | nil =>
    rw [List.prefix_nil.mp htaken]
    rfl
  | cons mark short =>
    obtain ⟨behind, rfl⟩ := h
    have hshort : short <+: short ++ behind := List.prefix_append _ _
    rw [List.cons_append] at htaken ⊢
    generalize short ++ behind = long at *
    by_cases hmark : mark = 'e' ∨ mark = 'E'
    · rw [exponentPart_cons hmark] at htaken ⊢
      rw [exponentPart_cons hmark]
      obtain rfl | hne := eq_or_ne short []
      · -- the mark alone leaves no room for digits
        have hdigits : ((long.drop (signPart long).length).takeWhile Char.isDigit).isEmpty := by
          by_contra hdigits
          rw [if_neg hdigits] at htaken
          obtain ⟨-, hnil⟩ := List.cons_prefix_cons.mp htaken
          apply hdigits
          rw [(List.append_eq_nil_iff.mp (List.prefix_nil.mp hnil)).2]
          rfl
        rw [if_pos hdigits]
        rfl
      · rw [signPart_of_isPrefix hshort hne, takeWhile_of_isPrefix (drop_isPrefix_drop _ hshort)]
        split_ifs at htaken with hdigits
        · rw [List.isEmpty_iff.mp hdigits]
          apply List.nil_prefix
        · apply isPrefix_drop_of_append (List.cons_prefix_cons.mp htaken).2
    · rw [exponentPart_of_no_mark hmark, exponentPart_of_no_mark hmark]

/-- A number begins with all digits that are there. -/
theorem digits_isPrefix_numberPart
    (cs : List Char) :
  cs.takeWhile Char.isDigit <+: (numberPart cs).2
  := by
  unfold numberPart
  dsimp only
  split
  · split_ifs
    · apply List.prefix_rfl
    · apply List.prefix_append
  · apply List.prefix_rfl

theorem numberPart_of_isPrefix {short long : List Char} (h : short <+: long)
    (htaken : (numberPart long).2 <+: short) :
  numberPart short = numberPart long
  := by
  have hdigits := takeWhile_of_isPrefix h ((digits_isPrefix_numberPart long).trans htaken)
  have hdrop := drop_isPrefix_drop (long.takeWhile Char.isDigit).length h
  unfold numberPart at htaken ⊢
  dsimp only at htaken ⊢
  rw [hdigits]
  generalize long.takeWhile Char.isDigit = whole at *
  generalize long.drop whole.length = behind at *
  generalize hfront : short.drop whole.length = front at *
  split at htaken
  · rename_i rest
    split_ifs at htaken with hfraction
    · cases front with
      | nil => simp [hfraction]
      | cons c front =>
        obtain ⟨rfl, hrest⟩ := List.cons_prefix_cons.mp hdrop
        have hsame : front.takeWhile Char.isDigit = rest.takeWhile Char.isDigit := by
          apply takeWhile_of_isPrefix hrest
          rw [List.isEmpty_iff.mp hfraction]
          apply List.nil_prefix
        simp [hsame, hfraction]
    · have htaken := isPrefix_drop_of_append htaken
      rw [hfront] at htaken
      cases front with
      | nil => cases List.prefix_nil.mp htaken
      | cons c front =>
        obtain ⟨rfl, hrest⟩ := List.cons_prefix_cons.mp hdrop
        obtain ⟨-, htaken⟩ := List.cons_prefix_cons.mp htaken
        have hsame : front.takeWhile Char.isDigit = rest.takeWhile Char.isDigit :=
          takeWhile_of_isPrefix hrest ((List.prefix_append _ _).trans htaken)
        have hexponent := exponentPart_of_isPrefix (drop_isPrefix_drop _ hrest)
          (isPrefix_drop_of_append htaken)
        simp only [hsame, hexponent]
  · rename_i hpoint
    split
    · obtain ⟨more, rfl⟩ := hdrop
      cases hpoint _ rfl
    · rfl

/-- A quote at the front ends a string. -/
theorem stringPart_quote {quote : Char} (hquote : quote ≠ '\\') (cs : List Char) :
  stringPart quote (quote :: cs) = ([], true)
  := by
  cases cs with
  | nil =>
    rw [stringPart]
    · exact if_pos rfl
    · exact hquote
  | cons c cs => rw [stringPart, if_pos rfl]

/-- A string is closed where it is in a text that ends earlier, if not inside the string. -/
theorem stringPart_of_isPrefix {quote : Char} (hquote : quote ≠ '\\')
    {short long inside : List Char} (hpart : stringPart quote long = (inside, true))
    (htaken : inside ++ [quote] <+: short) :
  stringPart quote short = (inside, true)
  := by
  obtain ⟨behind, rfl⟩ := htaken
  rw [List.append_assoc]
  fun_induction stringPart quote long generalizing inside with
  | case1 => cases hpart
  | case2 => cases hpart
  | case3 d rest =>
    obtain ⟨rfl, -⟩ := Prod.mk.inj hpart
    apply stringPart_quote hquote
  | case4 => cases hpart
  | case5 d rest hd inside' closed hrest hc ih =>
    obtain ⟨rfl, rfl⟩ := Prod.mk.inj hpart
    exact stringPart_escape hquote.symm hd (ih hrest)
  | case6 c d rest hc hbackslash inside' closed hrest ih =>
    obtain ⟨rfl, rfl⟩ := Prod.mk.inj hpart
    exact stringPart_cons hc hbackslash (ih hrest)
  | case7 =>
    obtain ⟨rfl, -⟩ := Prod.mk.inj hpart
    apply stringPart_quote hquote
  | case8 => cases hpart

/-- A symbol is spelled at the front of a text that ends earlier, if not inside the symbol. -/
theorem find?_spelling_of_isPrefix {short long text : List Char} {s : Symbol} (h : short <+: long)
    (hfind : Symbol.spellings.find? (·.1.isPrefixOf long) = some (text, s))
    (htaken : text <+: short) :
  Symbol.spellings.find? (·.1.isPrefixOf short) = some (text, s)
  := by
  obtain ⟨-, before, behind, hsplit, hbefore⟩ := List.find?_eq_some_iff_append.mp hfind
  apply List.find?_eq_some_iff_append.mpr
  refine ⟨List.isPrefixOf_iff_prefix.mpr htaken, before, behind, hsplit, ?_⟩
  intro e he
  have hlong := hbefore e he
  rw [Bool.not_eq_true', ← Bool.not_eq_true, List.isPrefixOf_iff_prefix] at hlong ⊢
  exact fun hshort => hlong (hshort.trans h)

/-- The same lexeme is taken from a text that ends earlier, if not inside the lexeme. -/
theorem take_of_isPrefix {c : Char} {short long text : List Char} {kind : LexemeKind}
    (h : short <+: long) (htake : take c long = .ok (kind, text)) (htext : text <+: c :: short) :
  take c short = .ok (kind, text)
  := by
  have hcons : c :: short <+: c :: long := (List.prefix_cons_inj c).mpr h
  unfold take at htake ⊢
  split_ifs at htake ⊢ with hword hdigit hquote hdate
  · obtain ⟨rfl, rfl⟩ := Prod.mk.inj (Except.ok.inj htake)
    rw [takeWhile_of_isPrefix h (List.cons_prefix_cons.mp htext).2]
  · have hnumber := Except.ok.inj htake
    rw [numberPart_of_isPrefix hcons (by rwa [hnumber]), hnumber]
  · split at htake
    · rename_i inside hinside
      obtain ⟨rfl, rfl⟩ := Prod.mk.inj (Except.ok.inj htake)
      have hc : c ≠ '\\' := by
        rintro rfl
        revert hquote
        decide
      rw [stringPart_of_isPrefix hc hinside (List.cons_prefix_cons.mp htext).2]
    · cases htake
  · dsimp only at htake ⊢
    split_ifs at htake with hclosed
    obtain ⟨rfl, rfl⟩ := Prod.mk.inj (Except.ok.inj htake)
    have hinside := (List.cons_prefix_cons.mp htext).2
    have hlast := isPrefix_drop_of_append hinside
    obtain ⟨behind, hbehind⟩ := hlast
    rw [takeWhile_of_isPrefix h ((List.prefix_append _ _).trans hinside), ← hbehind]
    rfl
  · split at htake
    · rename_i text' s hfind
      obtain ⟨rfl, rfl⟩ := Prod.mk.inj (Except.ok.inj htake)
      rw [find?_spelling_of_isPrefix hcons hfind htext]
    · cases htake

/-! ### Parts of texts -/

/-- Whether the part of a text between `before` and `behind` is divided into blanks and the given
lexemes. -/
inductive Divides (behind : List Char) : List Char → List Char → List Lexeme → Prop where
  | nil {before : List Char} : Divides behind before [] []
  | blank {before : List Char} {c : Char} {part : List Char} {ls : List Lexeme}
      (hc : isSeparator c) (h : Divides behind (before ++ [c]) part ls) :
    Divides behind before (c :: part) ls
  | lexeme {before : List Char} {c : Char} {cs part : List Char} {kind : LexemeKind}
      {ls : List Lexeme} (hc : ¬isSeparator c)
      (htake : take c (cs ++ (part ++ behind)) = .ok (kind, c :: cs))
      (h : Divides behind (before ++ c :: cs) part ls) :
    Divides behind before (c :: cs ++ part) (⟨kind, c :: cs, .after before⟩ :: ls)

namespace Divides

variable {behind before part : List Char} {ls : List Lexeme}

/-- A part is divided in the same way if the text behind it ends earlier. -/
theorem of_isPrefix (h : Divides behind before part ls) {short : List Char}
    (hshort : short <+: behind) :
  Divides short before part ls
  := by
  induction h with
  | nil => exact .nil
  | blank hc h ih => exact .blank hc ih
  | @lexeme before c cs part kind ls hc htake h ih =>
    refine .lexeme hc ?_ ih
    have hpart : part ++ short <+: part ++ behind := (List.prefix_append_right_inj part).mpr hshort
    apply take_of_isPrefix ((List.prefix_append_right_inj cs).mpr hpart) htake
    apply List.cons_prefix_cons.mpr
    exact ⟨rfl, List.prefix_append _ _⟩

/-- In front of each of its lexemes a part is divided into the lexemes before that one. -/
theorem split (h : Divides behind before part ls) {ls₁ ls₂ : List Lexeme} {l : Lexeme}
    (hls : ls = ls₁ ++ l :: ls₂) :
  ∃ part₁ part₂, part = part₁ ++ (l.text ++ part₂)
    ∧ Divides (l.text ++ part₂ ++ behind) before part₁ ls₁ ∧ l.start = .after (before ++ part₁)
  := by
  induction h generalizing ls₁ with
  | nil => cases ls₁ <;> cases hls
  | @blank before c part ls hc h ih =>
    obtain ⟨part₁, part₂, rfl, hpart₁, hstart⟩ := ih hls
    rw [List.append_assoc] at hstart
    exact ⟨c :: part₁, part₂, rfl, .blank hc hpart₁, hstart⟩
  | @lexeme before c cs part kind ls hc htake h ih =>
    cases ls₁ with
    | nil =>
      obtain ⟨rfl, rfl⟩ := List.cons.inj hls
      exact ⟨[], part, rfl, .nil, by rw [List.append_nil]⟩
    | cons l₁ ls₁ =>
      obtain ⟨rfl, hrest⟩ := List.cons.inj hls
      obtain ⟨part₁, part₂, rfl, hpart₁, hstart⟩ := ih hrest
      rw [List.append_assoc] at hstart
      refine ⟨c :: cs ++ part₁, part₂, by simp, .lexeme hc ?_ hpart₁, hstart⟩
      rw [List.append_assoc] at htake
      apply htake

/-- The lexemes of a text are those that it is divided into. -/
theorem scan (h : Divides [] before part ls) {fuel : Nat} (hfuel : part.length ≤ fuel) :
  Lexeme.scan fuel (.after before) part = .ok (ls, .after (before ++ part))
  := by
  induction h generalizing fuel with
  | nil => cases fuel <;> simp [Lexeme.scan]
  | @blank before c part ls hc h ih =>
    rw [List.length_cons] at hfuel
    obtain ⟨fuel, rfl⟩ : ∃ n, fuel = n + 1 := Nat.exists_eq_succ_of_ne_zero (by omega)
    rw [Lexeme.scan, if_pos hc, ← Position.after_concat, ih (by omega), List.append_assoc]
    rfl
  | @lexeme before c cs part kind ls hc htake h ih =>
    rw [List.length_append, List.length_cons] at hfuel
    obtain ⟨fuel, rfl⟩ : ∃ n, fuel = n + 1 := Nat.exists_eq_succ_of_ne_zero (by omega)
    have hdrop : (c :: (cs ++ part)).drop (c :: cs).length = part := List.drop_left
    rw [List.append_nil] at htake
    rw [List.cons_append, Lexeme.scan, if_neg hc, htake]
    dsimp only
    rw [hdrop, Lexeme.stop, Position.advanceBy_after, ih (by omega), List.append_assoc]
    rfl

end Divides

/-! ### Whole texts -/

/-- What is inside of a string that is not closed is a beginning of the text. -/
theorem stringPart_isPrefix
    (quote : Char) (cs : List Char) :
  (stringPart quote cs).1 <+: cs
  := by
  fun_induction stringPart quote cs with
  | case1 => apply List.nil_prefix
  | case2 => apply List.nil_prefix
  | case3 => apply List.nil_prefix
  | case4 => apply List.nil_prefix
  | case5 d rest hd inside closed hrest hc ih =>
    rw [hrest] at ih
    exact (List.prefix_cons_inj _).mpr ((List.prefix_cons_inj d).mpr ih)
  | case6 c d rest hc hbackslash inside closed hrest ih =>
    rw [hrest] at ih
    exact (List.prefix_cons_inj c).mpr ih
  | case7 => apply List.nil_prefix
  | case8 => apply List.prefix_rfl

/-- The characters at fault where no lexeme is found are a beginning of the text. -/
theorem isPrefix_of_take_error {c : Char} {rest text : List Char} {fault : LexFault}
    (h : take c rest = .error (fault, text)) :
  text <+: c :: rest
  := by
  unfold take at h
  split_ifs at h
  · split at h
    · cases h
    · rename_i inside hinside
      obtain ⟨-, rfl⟩ := Prod.mk.inj (Except.error.inj h)
      have hprefix := stringPart_isPrefix c rest
      rw [hinside] at hprefix
      exact (List.prefix_cons_inj c).mpr hprefix
  · dsimp only at h
    split_ifs at h
    obtain ⟨-, rfl⟩ := Prod.mk.inj (Except.error.inj h)
    exact (List.prefix_cons_inj c).mpr (List.takeWhile_prefix _)
  · split at h
    · cases h
    · obtain ⟨-, rfl⟩ := Prod.mk.inj (Except.error.inj h)
      exact (List.prefix_cons_inj c).mpr List.nil_prefix

/-- A text is divided into lexemes as a whole, or up to a character where no lexeme is found. -/
theorem scan_cases {fuel : Nat} (before : List Char) {cs : List Char} (hfuel : cs.length ≤ fuel) :
  (∃ ls, Divides [] before cs ls)
    ∨ ∃ part c rest ls fault text, cs = part ++ c :: rest ∧ Divides (c :: rest) before part ls
      ∧ take c rest = .error (fault, text)
      ∧ scan fuel (.after before) cs = .error ⟨fault, ⟨byteSize (before ++ part),
          byteSize (before ++ part ++ text)⟩, (Position.after (before ++ part)).line,
          (Position.after (before ++ part)).column⟩
  := by
  induction fuel generalizing before cs with
  | zero =>
    obtain rfl := List.length_eq_zero_iff.mp (Nat.le_zero.mp hfuel)
    exact .inl ⟨[], .nil⟩
  | succ fuel ih =>
    cases cs with
    | nil => exact .inl ⟨[], .nil⟩
    | cons c rest =>
      rw [List.length_cons] at hfuel
      have hrest : rest.length ≤ fuel := by omega
      by_cases hc : isSeparator c
      · obtain ⟨ls, h⟩ | ⟨part, c', rest', ls, fault, text, rfl, h, htake, hscan⟩ :=
          ih (before ++ [c]) hrest
        · exact .inl ⟨ls, .blank hc h⟩
        · refine .inr ⟨c :: part, c', rest', ls, fault, text, rfl, .blank hc h, htake, ?_⟩
          rw [scan, if_pos hc, ← Position.after_concat, hscan]
          simp
      · cases htake : take c rest with
        | error e =>
          obtain ⟨fault, text⟩ := e
          refine .inr ⟨[], c, rest, [], fault, text, rfl, .nil, htake, ?_⟩
          rw [scan, if_neg hc, htake]
          simp [Position.after]
        | ok found =>
          obtain ⟨kind, text⟩ := found
          obtain ⟨cs, behind, rfl, rfl⟩ := exists_append_of_take htake
          have hbehind : behind.length ≤ fuel := by
            rw [List.length_append] at hrest
            omega
          obtain ⟨ls, h⟩ | ⟨part, c', rest', ls, fault, text, rfl, h, htake', hscan⟩ :=
            ih (before ++ c :: cs) hbehind
          · exact .inl ⟨_, .lexeme hc (by rwa [List.append_nil]) h⟩
          · refine .inr ⟨c :: cs ++ part, c', rest', _, fault, text, by simp,
              .lexeme hc htake h, htake', ?_⟩
            rw [scan, if_neg hc, htake]
            dsimp only
            rw [← List.cons_append, List.drop_left, Lexeme.stop, Position.advanceBy_after, hscan]
            simp

end RuleLang.Lexeme
