import Mathlib.Data.List.DropRight
import RuleLang.Proofs.Token.Spelling

/-!
# How tokens tile a text

The tokens of a text stand behind each other with only blanks between them, and each tells
where it stands.  `Token.Covers` says what a token tells of its place in terms of what stands
before it alone: the line is told by the number of line feeds there, the column by the number
of characters behind the last of them, carriage returns left out.  `Tiles` is the division of
what is left of a text into tokens and blanks.
-/

namespace RuleLang

/-- What stands behind the last line feed of a text. -/
def Text.lastLine (cs : List Char) : List Char := cs.rtakeWhile (· ≠ '\n')

/-- The place behind a text that begins at the first line and the first column. -/
def Position.after (cs : List Char) : Position where
  offset := byteSize cs
  line := 1 + cs.count '\n'
  column := 1 + (Text.lastLine cs).countP (· ≠ '\r')

/-- Whether a token covers `text` behind `before` in a larger text, and tells its place
there. -/
structure Token.Covers (t : Token) (before text source : List Char) : Prop where
  isPrefix : before ++ text <+: source
  span_eq : t.span = ⟨byteSize before, byteSize (before ++ text)⟩
  line_eq : t.line = 1 + before.count '\n'
  column_eq : t.column = 1 + (Text.lastLine before).countP (· ≠ '\r')
  length_eq : t.length = text.length

/-! ### Positions behind a text -/

namespace Position

/-- A character moves the place behind a text. -/
theorem after_concat
    (cs : List Char) (c : Char) :
  after (cs ++ [c]) = (after cs).advance c
  := by
  have hbytes : byteSize [c] = c.utf8Size := rfl
  unfold after advance Text.lastLine
  rw [byteSize_append, hbytes, List.count_append, List.rtakeWhile_concat, Position.mk.injEq]
  refine ⟨rfl, ?_, ?_⟩
  · split <;> simp [*, Nat.add_assoc]
  · by_cases hfeed : c = '\n'
    · simp [hfeed]
    · by_cases hreturn : c = '\r' <;> simp [hfeed, hreturn, Nat.add_assoc]

/-- The place behind two texts is reached through the second from behind the first. -/
theorem advanceBy_after
    (before cs : List Char) :
  (after before).advanceBy cs = after (before ++ cs)
  := by
  induction cs generalizing before with
  | nil => simp
  | cons c cs ih =>
    change ((after before).advance c).advanceBy cs = _
    rw [← after_concat, ih, List.append_assoc]
    rfl

end Position

/-! ### Tiles -/

/-- Whether what lies behind `before` is divided into the given tokens and blanks. -/
inductive Tiles (source : List Char) : List Char → List Char → List Token → Prop where
  | nil : Tiles source source [] []
  | blank {before : List Char} {c : Char} {cs : List Char} {ts : List Token}
      (hc : Lexeme.isSeparator c) (h : Tiles source (before ++ [c]) cs ts) :
    Tiles source before (c :: cs) ts
  | token {before text rest : List Char} {t : Token} {ts : List Token} (hne : text ≠ [])
      (hkind : t.kind ≠ .eof) (hcovers : t.Covers before text source)
      (h : Tiles source (before ++ text) rest ts) :
    Tiles source before (text ++ rest) (t :: ts)

namespace Tiles

variable {source before cs : List Char} {ts : List Token}

/-- Every tile covers a part of the text that is not empty. -/
theorem covers (h : Tiles source before cs ts) :
  ∀ t ∈ ts, t.kind ≠ .eof ∧ ∃ before text, text ≠ [] ∧ t.Covers before text source
  := by
  induction h with
  | nil => apply List.forall_mem_nil
  | blank hc h ih => exact ih
  | token hne hkind hcovers h ih =>
    exact List.forall_mem_cons.mpr ⟨⟨hkind, _, _, hne, hcovers⟩, ih⟩

/-- No tile begins before the place from which on the text is divided. -/
theorem le_start (h : Tiles source before cs ts) :
  ∀ t ∈ ts, byteSize before ≤ t.span.start
  := by
  induction h with
  | nil => apply List.forall_mem_nil
  | blank hc h ih =>
    intro t ht
    have hle := ih t ht
    rw [byteSize_append] at hle
    omega
  | @token before text rest t ts hne hkind hcovers h ih =>
    refine List.forall_mem_cons.mpr ⟨?_, ?_⟩
    · rw [hcovers.span_eq]
    · intro u hu
      have hle := ih u hu
      rw [byteSize_append] at hle
      omega

/-- A tile ends where the next one begins, or before. -/
theorem pairwise (h : Tiles source before cs ts) :
  ts.Pairwise fun t u => t.span.stop ≤ u.span.start
  := by
  induction h with
  | nil => apply List.Pairwise.nil
  | blank hc h ih => exact ih
  | token hne hkind hcovers h ih =>
    apply List.pairwise_cons.mpr ⟨?_, ih⟩
    rw [hcovers.span_eq]
    apply h.le_start

/-- What no tile covers is blank. -/
theorem isSeparator_of_uncovered (h : Tiles source before cs ts) {part behind : List Char}
    {c : Char} (hcs : cs = part ++ c :: behind)
    (hc : ∀ t ∈ ts, ¬(t.span.start ≤ byteSize (before ++ part)
      ∧ byteSize (before ++ part) < t.span.stop)) :
  Lexeme.isSeparator c
  := by
  induction h generalizing part with
  | nil => cases part <;> cases hcs
  | blank hd h ih =>
    cases part with
    | nil =>
      obtain ⟨rfl, -⟩ := List.cons.inj hcs
      apply hd
    | cons d part =>
      obtain ⟨rfl, rfl⟩ := List.cons.inj hcs
      apply ih rfl
      simpa using hc
  | @token before text rest t ts hne hkind hcovers h ih =>
    obtain ⟨hfirst, hrest⟩ := List.forall_mem_cons.mp hc
    obtain ⟨later, rfl, rfl⟩ : ∃ later, part = text ++ later ∧ rest = later ++ c :: behind := by
      obtain hbehind | ⟨inside, rfl, hinside⟩ := List.append_eq_append_iff.mp hcs
      · apply hbehind
      · cases inside with
        | nil => exact ⟨[], by simp, by simpa using hinside.symm⟩
        | cons d inside =>
          -- a character inside the first tile would be covered
          have hsize := d.utf8Size_pos
          rw [hcovers.span_eq] at hfirst
          simp only [byteSize_append, byteSize] at hfirst
          omega
    apply ih rfl
    rw [List.append_assoc]
    apply hrest

end Tiles

namespace Lexeme

/-- A lexeme is never the end of input. -/
theorem toKind_ne_eof {l : Lexeme} {b : Bool} {k : TokenKind} (h : l.toKind b = .ok k) :
  k ≠ .eof
  := by
  obtain ⟨kind, text, start⟩ := l
  cases kind
  case symbol | truth =>
    obtain rfl := Except.ok.inj h
    rintro ⟨⟩
  case word =>
    obtain rfl := Except.ok.inj h
    cases b <;> rintro ⟨⟩
  case integer | decimal | string =>
    obtain ⟨_, -, rfl⟩ := Except.map_eq_ok_iff.mp h
    rintro ⟨⟩
  case date =>
    simp only [toKind, readDate] at h
    split at h
    · split at h
      · obtain rfl := Except.ok.inj h
        rintro ⟨⟩
      · cases h
    · split at h
      · obtain rfl := Except.ok.inj h
        rintro ⟨⟩
      · cases h

/-- The tokens of the lexemes of a text tile it. -/
theorem tiles_of_scan {fuel : Nat} {cs : List Char} {stop : Position} {ls : List Lexeme}
    {ts : List Token} (before : List Char) (hfuel : cs.length ≤ fuel)
    (hscan : scan fuel (.after before) cs = .ok (ls, stop)) (hts : toTokens ls = .ok ts) :
  Tiles (before ++ cs) before cs ts ∧ stop = .after (before ++ cs)
  := by
  induction fuel generalizing before cs ls ts with
  | zero =>
    obtain rfl := List.length_eq_zero_iff.mp (Nat.le_zero.mp hfuel)
    obtain ⟨rfl, rfl⟩ := Prod.mk.inj (Except.ok.inj hscan)
    obtain rfl := Except.ok.inj hts
    rw [List.append_nil]
    exact ⟨.nil, rfl⟩
  | succ fuel ih =>
    cases cs with
    | nil =>
      obtain ⟨rfl, rfl⟩ := Prod.mk.inj (Except.ok.inj hscan)
      obtain rfl := Except.ok.inj hts
      rw [List.append_nil]
      exact ⟨.nil, rfl⟩
    | cons c rest =>
      rw [List.length_cons] at hfuel
      rw [scan] at hscan
      split at hscan
      · rename_i hc
        rw [← Position.after_concat] at hscan
        obtain ⟨htiles, hstop⟩ := ih _ (by omega) hscan hts
        rw [List.append_assoc, List.singleton_append] at htiles hstop
        exact ⟨.blank hc htiles, hstop⟩
      · split at hscan
        · rename_i kind text htake
          obtain ⟨⟨ls', stop'⟩, hscan', h⟩ := Except.bind_eq_ok_iff.mp hscan
          obtain ⟨rfl, rfl⟩ := Prod.mk.inj (Except.ok.inj h)
          obtain ⟨t, ht, h⟩ := Except.bind_eq_ok_iff.mp hts
          obtain ⟨ts', hts', h⟩ := Except.bind_eq_ok_iff.mp h
          obtain rfl := Except.ok.inj h
          obtain ⟨k, hk, rfl⟩ := toToken_eq_ok_iff.mp ht
          obtain ⟨cs, behind, rfl, rfl⟩ := exists_append_of_take htake
          rw [← List.cons_append, List.drop_left] at hscan'
          rw [Lexeme.stop, Position.advanceBy_after] at hscan'
          rw [List.length_append] at hfuel
          obtain ⟨htiles, hstop⟩ := ih _ (by omega) hscan' hts'
          rw [List.append_assoc] at htiles hstop
          refine ⟨.token (List.cons_ne_nil c cs) (toKind_ne_eof hk) ?_ htiles, hstop⟩
          exact {
            isPrefix := ⟨behind, by simp⟩
            span_eq := by rw [Lexeme.span, Lexeme.stop, Position.advanceBy_after]; rfl
            line_eq := rfl
            column_eq := rfl
            length_eq := rfl }
        · cases hscan

end Lexeme

/-- The tokens of a text before the last one cover parts of it that are not empty, one behind
the other, and leave only blanks out.  The last one is the end of input and covers nothing,
behind the whole text. -/
theorem tokenize_tiles {source : List Char} {tokens : List Token}
    (h : tokenize source = .ok tokens) :
  ∃ body last, tokens = body ++ [last]
    ∧ (∀ t ∈ body, t.kind ≠ .eof ∧ ∃ before text, text ≠ [] ∧ t.Covers before text source)
    ∧ body.Pairwise (fun t u => t.span.stop ≤ u.span.start)
    ∧ (∀ before c behind, source = before ++ c :: behind →
        (∀ t ∈ body, ¬(t.span.start ≤ byteSize before ∧ byteSize before < t.span.stop)) →
        c = ' ' ∨ c = '\t' ∨ c = '\r' ∨ c = '\n')
    ∧ last.kind = .eof ∧ last.Covers source [] source
  := by
  obtain ⟨⟨ls, stop⟩, hscan, h⟩ := Except.bind_eq_ok_iff.mp h
  obtain ⟨ts, hts, h⟩ := Except.bind_eq_ok_iff.mp h
  obtain rfl := Except.ok.inj h
  obtain ⟨htiles, rfl⟩ := Lexeme.tiles_of_scan [] (Nat.le_refl _) hscan hts
  refine ⟨ts, .atEnd (.after source), rfl, htiles.covers, htiles.pairwise, ?_, rfl, ?_⟩
  · intro before c behind hsource huncovered
    have hblank := htiles.isSeparator_of_uncovered hsource huncovered
    simpa [Lexeme.isSeparator] using hblank
  · exact {
      isPrefix := by simp
      span_eq := by simp [Token.atEnd, Span.point, Position.after]
      line_eq := rfl
      column_eq := rfl
      length_eq := rfl }

/-- The name behind a string of two lines stands in the second line, and its bytes count those
of the string. -/
theorem tokenize_tiles_lines :
  let source := "'ä\n' b".toList
  let tokens : List Token :=
    [⟨.str "ä\n", ⟨0, 5⟩, 1, 1, 4⟩, ⟨.ident "b", ⟨6, 7⟩, 2, 3, 1⟩, ⟨.eof, ⟨7, 7⟩, 2, 4, 0⟩]
  tokenize source = .ok tokens
    ∧ ∃ body last, tokens = body ++ [last]
      ∧ (∀ t ∈ body, t.kind ≠ .eof ∧ ∃ before text, text ≠ [] ∧ t.Covers before text source)
      ∧ last.kind = .eof ∧ last.Covers source [] source
  := by
  intro source tokens
  have htokens : tokenize source = .ok tokens := rfl
  obtain ⟨body, last, hbody, hcovers, -, -, hkind, hlast⟩ := tokenize_tiles htokens
  exact ⟨htokens, body, last, hbody, hcovers, hkind, hlast⟩

end RuleLang
