import Mathlib.Data.Option.Basic
import RuleLang.Proofs.Token.Faults
import RuleLang.Proofs.Token.Lexing

/-!
# Blanks between tokens

A blank ends every lexeme before it, and whether a parenthesis follows a name is asked of the
next lexeme, not of the next character.  So the tokens of a text are those of its lexemes, however
they are spread: with any blanks before the first, between two of them and behind the last.
-/

namespace RuleLang

namespace Lexeme

/-! ### Lexemes in front of blanks -/

/-- Whether a text is empty or begins with a blank. -/
def Ends (rest : List Char) : Prop := ∀ c ∈ rest.head?, isSeparator c

theorem isSeparator_cases {c : Char} (h : isSeparator c) :
  c = ' ' ∨ c = '\t' ∨ c = '\r' ∨ c = '\n'
  := by
  simpa [isSeparator] using h

section

variable {rest : List Char} (hrest : Ends rest)
include hrest

/-- The characters that satisfy a test which no blank satisfies end where a blank begins. -/
theorem takeWhile_append_of_ends {p : Char → Bool} (hp : ∀ c, isSeparator c → p c = false)
    (cs : List Char) :
  (cs ++ rest).takeWhile p = cs.takeWhile p
  := by
  induction cs with
  | nil =>
    cases rest with
    | nil => rfl
    | cons c rest => simp [hp c (hrest c rfl)]
  | cons c cs ih => rw [List.cons_append, List.takeWhile_cons, List.takeWhile_cons, ih]

theorem takeWhile_isDigit_append
    (cs : List Char) :
  (cs ++ rest).takeWhile Char.isDigit = cs.takeWhile Char.isDigit
  := by
  apply takeWhile_append_of_ends hrest
  intro c hc
  obtain rfl | rfl | rfl | rfl := isSeparator_cases hc <;> decide

theorem signPart_append
    (cs : List Char) :
  signPart (cs ++ rest) = signPart cs
  := by
  cases cs with
  | nil =>
    cases rest with
    | nil => rfl
    | cons c rest => obtain rfl | rfl | rfl | rfl := isSeparator_cases (hrest c rfl) <;> rfl
  | cons c cs => rfl

/-- A blank is no part of an exponent. -/
theorem exponentPart_append
    (cs : List Char) :
  exponentPart (cs ++ rest) = exponentPart cs
  := by
  cases cs with
  | nil =>
    cases rest with
    | nil => rfl
    | cons c rest =>
      apply exponentPart_of_no_mark
      obtain rfl | rfl | rfl | rfl := isSeparator_cases (hrest c rfl) <;> decide
  | cons mark cs =>
    rw [List.cons_append]
    by_cases hmark : mark = 'e' ∨ mark = 'E'
    · have hsign : (signPart cs).length ≤ cs.length :=
        (List.length_filter_le _ _).trans (List.length_take_le' _ _)
      rw [exponentPart_cons hmark, exponentPart_cons hmark, signPart_append hrest,
        List.drop_append_of_le_length hsign, takeWhile_isDigit_append hrest]
    · rw [exponentPart_of_no_mark hmark, exponentPart_of_no_mark hmark]

/-- A blank is no part of a number. -/
theorem numberPart_append
    (cs : List Char) :
  numberPart (cs ++ rest) = numberPart cs
  := by
  have hwhole : (cs.takeWhile Char.isDigit).length ≤ cs.length :=
    (List.takeWhile_prefix _).length_le
  unfold numberPart
  dsimp only
  rw [takeWhile_isDigit_append hrest, List.drop_append_of_le_length hwhole]
  generalize cs.takeWhile Char.isDigit = whole
  generalize cs.drop whole.length = behind
  cases behind with
  | nil =>
    cases rest with
    | nil => rfl
    | cons c rest => obtain rfl | rfl | rfl | rfl := isSeparator_cases (hrest c rfl) <;> rfl
  | cons c behind =>
    rw [List.cons_append]
    split
    · rename_i heq
      obtain ⟨rfl, rfl⟩ := List.cons.inj heq
      have hfraction : (behind.takeWhile Char.isDigit).length ≤ behind.length :=
        (List.takeWhile_prefix _).length_le
      simp only [takeWhile_isDigit_append hrest, List.drop_append_of_le_length hfraction,
        exponentPart_append hrest]
    · rename_i hpoint
      split
      · rename_i heq
        obtain ⟨rfl, -⟩ := List.cons.inj heq
        cases hpoint _ rfl
      · rfl

/-- A lexeme that is a whole text is also taken in front of a blank. -/
theorem take_append {c : Char} {cs : List Char} {kind : LexemeKind}
    (htake : take c cs = .ok (kind, c :: cs)) :
  take c (cs ++ rest) = .ok (kind, c :: cs)
  := by
  unfold take at htake ⊢
  split_ifs at htake ⊢ with hword hdigit hquote hdate
  · rw [takeWhile_append_of_ends hrest, htake]
    intro d hd
    obtain rfl | rfl | rfl | rfl := isSeparator_cases hd <;> decide
  · rw [← List.cons_append, numberPart_append hrest, htake]
  · split at htake
    · rename_i inside hinside
      obtain ⟨rfl, htext⟩ := Prod.mk.inj (Except.ok.inj htake)
      have hc : c ≠ '\\' := by
        rintro rfl
        revert hquote
        decide
      obtain ⟨-, hcs⟩ := List.cons.inj htext
      have hclosed : inside ++ [c] <+: cs ++ rest := by
        rw [hcs]
        apply List.prefix_append
      rw [stringPart_of_isPrefix hc hinside hclosed]
      dsimp only
      rw [htext]
    · cases htake
  · dsimp only at htake ⊢
    split_ifs at htake with hclosed
    obtain ⟨rfl, htext⟩ := Prod.mk.inj (Except.ok.inj htake)
    obtain ⟨-, hcs⟩ := List.cons.inj htext
    set isInside : Char → Bool := fun d => decide (d ≠ '#' ∧ d ≠ '\n')
    have happend : cs ++ rest = cs.takeWhile isInside ++ '#' :: rest := by
      nth_rewrite 1 [← hcs]
      rw [List.append_assoc]
      rfl
    have hsame : (cs ++ rest).takeWhile isInside = cs.takeWhile isInside := by
      rw [happend]
      apply takeWhile_append_of_head
      · intro d hd
        exact List.mem_takeWhile_imp hd
      · rintro d ⟨⟩
        decide
    have hbehind : (cs ++ rest).drop (cs.takeWhile isInside).length = '#' :: rest := by
      rw [happend, List.drop_left]
    simp only [hsame, hbehind, List.head?_cons, if_true, htext]
  · split at htake
    · rename_i text s hfind
      obtain ⟨rfl, rfl⟩ := Prod.mk.inj (Except.ok.inj htake)
      have hopens : Opens rest := by
        intro d hd
        obtain rfl | rfl | rfl | rfl := isSeparator_cases (hrest d hd) <;> decide
      have hspelling := find?_spelling hopens _ (List.mem_of_find?_eq_some hfind)
      rw [← List.cons_append, hspelling]
    · cases htake

end

/-! ### Spread lexemes -/

/-- Whether a lexeme is what is taken from its own text. -/
def IsWhole (l : Lexeme) : Prop :=
  ∃ c cs, l.text = c :: cs ∧ ¬isSeparator c ∧ take c cs = .ok (l.kind, c :: cs)

/-- The lexemes of a text are taken from their own texts. -/
theorem Divides.isWhole {behind before part : List Char} {ls : List Lexeme}
    (h : Divides behind before part ls) :
  ∀ l ∈ ls, l.IsWhole
  := by
  induction h with
  | nil => exact nofun
  | blank hc h ih => exact ih
  | lexeme hc htake h ih =>
    refine List.forall_mem_cons.mpr ⟨?_, ih⟩
    exact ⟨_, _, rfl, hc, take_of_isPrefix (List.prefix_append _ _) htake List.prefix_rfl⟩

/-- The span of a lexeme covers its text. -/
theorem Divides.slice? {source : List Char} {ls : List Lexeme} (h : Divides [] [] source ls) :
  ∀ l ∈ ls, l.span.slice? source = some l.text
  := by
  intro l hl
  obtain ⟨ls₁, ls₂, hls⟩ := List.append_of_mem hl
  obtain ⟨before, behind, rfl, -, hstart⟩ := h.split hls
  rw [List.nil_append] at hstart
  rw [span, stop, hstart, Position.advanceBy_after]
  change Span.slice? ⟨byteSize before, byteSize (before ++ l.text)⟩ _ = _
  rw [Span.slice?, byteSize_append, if_pos (Nat.le_add_right _ _), Nat.add_sub_cancel_left,
    dropBytes?_byteSize_append, Option.bind_some, takeBytes?_byteSize_append]

/-- Tokens cover what their lexemes cover, and none is the end of input. -/
theorem span_of_toTokens {ls : List Lexeme} {ts : List Token} (h : toTokens ls = .ok ts) :
  ts.map Token.span = ls.map span ∧ ∀ t ∈ ts, t.kind ≠ .eof
  := by
  induction ls generalizing ts with
  | nil =>
    obtain rfl := Except.ok.inj h
    exact ⟨rfl, List.forall_mem_nil _⟩
  | cons l ls ih =>
    obtain ⟨t, ht, h⟩ := Except.bind_eq_ok_iff.mp h
    obtain ⟨ts', hts, h⟩ := Except.bind_eq_ok_iff.mp h
    obtain rfl := Except.ok.inj h
    obtain ⟨k, hk, rfl⟩ := toToken_eq_ok_iff.mp ht
    obtain ⟨hspan, heof⟩ := ih hts
    exact ⟨congrArg (l.span :: ·) hspan, List.forall_mem_cons.mpr ⟨toKind_ne_eof hk, heof⟩⟩

end Lexeme

open Lexeme

/-- Texts one behind the other, each with a gap behind it. -/
def Text.spread (parts : List (List Char × List Char)) : List Char :=
  parts.flatMap fun (text, gap) => text ++ gap

/-- Blanks in front of a text spell nothing. -/
theorem Spells.blanks {gap cs : List Char} {ks : List TokenKind} (hgap : ∀ c ∈ gap, isSeparator c)
    (h : Spells cs ks) :
  Spells (gap ++ cs) ks
  := by
  induction gap with
  | nil => exact h
  | cons c gap ih =>
    obtain ⟨hc, hgap⟩ := List.forall_mem_cons.mp hgap
    exact .blank hc (ih hgap)

/-- Lexemes that are spread spell their tokens. -/
theorem spells_spread {ls : List Lexeme} {ts : List Token} {parts : List (List Char × List Char)}
    (hts : toTokens ls = .ok ts) (hls : ∀ l ∈ ls, l.IsWhole)
    (hparts : parts.map Prod.fst = ls.map Lexeme.text)
    (hgaps : ∀ p ∈ parts, ∀ c ∈ p.2, isSeparator c) (hne : ∀ p ∈ parts.dropLast, p.2 ≠ []) :
  Spells (Text.spread parts) (ts.map Token.kind)
  := by
  induction ls generalizing ts parts with
  | nil =>
    obtain rfl := Except.ok.inj hts
    obtain rfl := List.map_eq_nil_iff.mp hparts
    exact .nil
  | cons l ls ih =>
    obtain ⟨t, ht, h⟩ := Except.bind_eq_ok_iff.mp hts
    obtain ⟨ts', hts', h⟩ := Except.bind_eq_ok_iff.mp h
    obtain rfl := Except.ok.inj h
    obtain ⟨k, hk, rfl⟩ := toToken_eq_ok_iff.mp ht
    rw [beforeParen_of_toTokens hts'] at hk
    obtain ⟨⟨text, gap⟩, parts, rfl, rfl, hparts'⟩ := List.map_eq_cons_iff.mp hparts
    obtain ⟨hgap, hgaps⟩ := List.forall_mem_cons.mp hgaps
    obtain ⟨⟨c, cs, htext, hc, htake⟩, hls⟩ := List.forall_mem_cons.mp hls
    have hrest : Spells (Text.spread parts) (ts'.map Token.kind) := by
      apply ih hts' hls hparts' hgaps
      intro p hp
      apply hne p
      cases parts with
      | nil => cases hp
      | cons q parts => exact List.mem_cons_of_mem _ hp
    -- only the last lexeme may stand without a blank behind it
    have hends : Ends (gap ++ Text.spread parts) := by
      cases gap with
      | cons d gap =>
        rintro _ ⟨⟩
        exact hgap d List.mem_cons_self
      | nil =>
        cases parts with
        | nil => exact nofun
        | cons q parts => cases hne _ List.mem_cons_self rfl
    have hspread : Text.spread ((l.text, gap) :: parts)
        = c :: cs ++ (gap ++ Text.spread parts) := by
      rw [Text.spread, List.flatMap_cons, htext, List.append_assoc]
      rfl
    rw [hspread]
    exact .lexeme hc (take_append hends htake) (htext ▸ hk) (hrest.blanks hgap)

/-- However the texts of the tokens of a text are spread, with blanks between them and perhaps at
the ends, they are divided into tokens of the same kinds, the end of input behind them. -/
theorem tokenize_spread {source : List Char} {tokens : List Token}
    (h : tokenize source = .ok tokens) :
  ∃ texts : List (List Char),
    (tokens.filter (·.kind ≠ .eof)).map (·.span.slice? source) = texts.map some
      ∧ ∀ lead parts, parts.map Prod.fst = texts → (∀ c ∈ lead, isSeparator c) →
        (∀ p ∈ parts, ∀ c ∈ p.2, isSeparator c) → (∀ p ∈ parts.dropLast, p.2 ≠ []) →
        ∃ tokens', tokenize (lead ++ Text.spread parts) = .ok tokens'
          ∧ tokens'.map Token.kind = tokens.map Token.kind
  := by
  obtain ⟨⟨ls, stop⟩, hlexemes, h⟩ := Except.bind_eq_ok_iff.mp h
  obtain ⟨ts, hts, h⟩ := Except.bind_eq_ok_iff.mp h
  obtain rfl := Except.ok.inj h
  obtain ⟨ls', hls⟩ | ⟨_, _, _, _, _, _, -, -, -, hscan⟩ :=
    scan_cases [] (Nat.le_refl source.length)
  · obtain ⟨rfl, -⟩ := Prod.mk.inj (Except.ok.inj (hlexemes.symm.trans hls.lexemes))
    obtain ⟨hspan, heof⟩ := span_of_toTokens hts
    refine ⟨ls.map Lexeme.text, ?_, ?_⟩
    · have hfilter : (ts ++ [Token.atEnd stop]).filter (·.kind ≠ .eof) = ts := by
        rw [List.filter_append, List.filter_eq_self.mpr (by simpa using heof)]
        simp [Token.atEnd]
      calc ((ts ++ [Token.atEnd stop]).filter (·.kind ≠ .eof)).map (·.span.slice? source)
        _ = (ts.map Token.span).map (·.slice? source) := by rw [hfilter, List.map_map]; rfl
        _ = ls.map fun l => l.span.slice? source := by rw [hspan, List.map_map]; rfl
        _ = ls.map fun l => some l.text := List.map_congr_left hls.slice?
        _ = (ls.map Lexeme.text).map some := by rw [List.map_map]; rfl
    · intro lead parts hparts hlead hgaps hne
      have hspells := (spells_spread hts hls.isWhole hparts hgaps hne).blanks hlead
      obtain ⟨tokens', htokens', hkinds⟩ := spells_iff.mp hspells
      refine ⟨tokens', htokens', ?_⟩
      rw [hkinds, List.map_append]
      rfl
  · cases hlexemes.symm.trans hscan

/-- Blanks may stand between the name of a function and its parenthesis, but not inside of an
operator, which stays one text. -/
theorem tokenize_spread_call :
  let source := "f(x)>=1".toList
  let tokens : List Token := [⟨.functionName "f", ⟨0, 1⟩, 1, 1, 1⟩,
    ⟨.symbol .leftParen, ⟨1, 2⟩, 1, 2, 1⟩, ⟨.ident "x", ⟨2, 3⟩, 1, 3, 1⟩,
    ⟨.symbol .rightParen, ⟨3, 4⟩, 1, 4, 1⟩, ⟨.symbol .greaterEqual, ⟨4, 6⟩, 1, 5, 2⟩,
    ⟨.int 1, ⟨6, 7⟩, 1, 7, 1⟩, ⟨.eof, ⟨7, 7⟩, 1, 8, 0⟩]
  let parts := [(['f'], [' ', '\n']), (['('], ['\t']), (['x'], ['\r']), ([')'], [' ']),
    (['>', '='], ['\n']), (['1'], [])]
  tokenize source = .ok tokens
    ∧ Text.spread parts = "f \n(\tx\r) >=\n1".toList
    ∧ ∃ tokens', tokenize (' ' :: Text.spread parts) = .ok tokens'
      ∧ tokens'.map Token.kind = tokens.map Token.kind
  := by
  intro source tokens parts
  have htokens : tokenize source = .ok tokens := rfl
  obtain ⟨texts, htexts, hspread⟩ := tokenize_spread htokens
  have hparts : parts.map Prod.fst = texts :=
    List.map_injective_iff.mpr (Option.some_injective _) htexts
  refine ⟨htokens, rfl, hspread [' '] parts hparts (by simp [isSeparator]) ?_ ?_⟩
  · simp [parts, isSeparator]
  · simp [parts]

end RuleLang
