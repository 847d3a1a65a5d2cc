import RuleLang.Proofs.Token.Division

/-!
# The first fault of a text

A text that is not divided into tokens has either a literal that stands for nothing or a character
at which no lexeme begins.  The fault of a literal is told if the whole text is divided into
lexemes, and then it is the first fault of all.  Otherwise the character is told, even if a
literal before it is at fault.
-/

namespace RuleLang

namespace Lexeme

/-! ### Faults of literals -/

/-- Whether a lexeme stands for a token. -/
def IsRead (l : Lexeme) : Prop := ∃ k, l.toKind false = .ok k

/-- Whether a parenthesis follows only matters to words, which are never at fault. -/
theorem toKind_eq_error_iff {l : Lexeme} {b : Bool} {m : Misread} :
  l.toKind b = .error m ↔ l.toKind false = .error m
  := by
  obtain ⟨kind, text, start⟩ := l
  cases kind with
  | word => exact ⟨nofun, nofun⟩
  | _ => exact Iff.rfl

/-- A lexeme that stands for no token is told with its span, and with the place behind the
characters before the one that is at fault. -/
theorem toToken_eq_error_iff {l : Lexeme} {rest : List Lexeme} {e : LexError} :
  l.toToken rest = .error e
    ↔ ∃ fault k, l.toKind false = .error (fault, k)
      ∧ e = ⟨fault, l.span, (l.start.advanceBy (l.text.take k)).line,
          (l.start.advanceBy (l.text.take k)).column⟩
  := by
  unfold toToken
  cases h : l.toKind (rest.head?.any (·.kind = .symbol .leftParen)) with
  | ok k =>
    have hne : ∀ m, l.toKind false ≠ .error m := by
      intro m hm
      rw [toKind_eq_error_iff.mpr hm] at h
      cases h
    simp [h, hne]
  | error m =>
    dsimp only
    rw [h, toKind_eq_error_iff.mp h]
    constructor
    · intro he
      exact ⟨m.1, m.2, rfl, (Except.error.inj he).symm⟩
    · rintro ⟨fault, k, hm, rfl⟩
      obtain rfl := Except.error.inj hm
      rfl

/-- A lexeme makes a token if it stands for one. -/
theorem exists_toToken_iff {l : Lexeme} (rest : List Lexeme) :
  (∃ t, l.toToken rest = .ok t) ↔ l.IsRead
  := by
  constructor
  · rintro ⟨t, ht⟩
    cases h : l.toKind false with
    | ok k => exact ⟨k, h⟩
    | error m =>
      rw [toToken_eq_error_iff.mpr ⟨m.1, m.2, h, rfl⟩] at ht
      cases ht
  · rintro ⟨k, hk⟩
    cases h : l.toToken rest with
    | ok t => exact ⟨t, rfl⟩
    | error e =>
      obtain ⟨fault, n, hm, -⟩ := toToken_eq_error_iff.mp h
      rw [hk] at hm
      cases hm

/-- Lexemes make tokens exactly if every one of them stands for one. -/
theorem exists_toTokens_iff {ls : List Lexeme} :
  (∃ ts, toTokens ls = .ok ts) ↔ ∀ l ∈ ls, l.IsRead
  := by
  induction ls with
  | nil => exact ⟨fun _ => nofun, fun _ => ⟨[], rfl⟩⟩
  | cons l rest ih =>
    rw [List.forall_mem_cons, ← ih, ← exists_toToken_iff rest]
    constructor
    · rintro ⟨ts, h⟩
      obtain ⟨t, ht, h⟩ := Except.bind_eq_ok_iff.mp h
      obtain ⟨ts', hts, -⟩ := Except.bind_eq_ok_iff.mp h
      exact ⟨⟨t, ht⟩, ts', hts⟩
    · rintro ⟨⟨t, ht⟩, ts, hts⟩
      use t :: ts
      rw [toTokens, ht, hts]
      rfl

/-- The fault that is told of lexemes is that of the first one that stands for no token. -/
theorem exists_of_toTokens_error {ls : List Lexeme} {e : LexError} (h : toTokens ls = .error e) :
  ∃ ls₁ l ls₂, ls = ls₁ ++ l :: ls₂ ∧ (∀ l ∈ ls₁, l.IsRead) ∧ l.toToken ls₂ = .error e
  := by
  induction ls with
  | nil => cases h
  | cons l rest ih =>
    obtain hl | ⟨t, ht, h⟩ := Except.bind_eq_error_iff.mp h
    · exact ⟨[], l, rest, rfl, nofun, hl⟩
    · obtain hrest | ⟨ts, hts, h⟩ := Except.bind_eq_error_iff.mp h
      · obtain ⟨ls₁, l', ls₂, rfl, hread, hl'⟩ := ih hrest
        have hl : l.IsRead := (exists_toToken_iff _).mp ⟨t, ht⟩
        exact ⟨l :: ls₁, l', ls₂, rfl, List.forall_mem_cons.mpr ⟨hl, hread⟩, hl'⟩
      · cases h

/-- The lexemes of a text that is divided as a whole. -/
theorem Divides.lexemes {source : List Char} {ls : List Lexeme} (h : Divides [] [] source ls) :
  RuleLang.lexemes source = .ok (ls, .after source)
  := h.scan (Nat.le_refl _)

/-- A text that is divided as a whole has the tokens that its lexemes make. -/
theorem Divides.tokenize {source : List Char} {ls : List Lexeme} (h : Divides [] [] source ls) :
  RuleLang.tokenize source = (toTokens ls).map (· ++ [.atEnd (.after source)])
  := by
  unfold RuleLang.tokenize
  rw [h.lexemes]
  change toTokens ls >>= _ = _
  cases toTokens ls <;> rfl

/-- A text that is divided as a whole has tokens if its lexemes stand for some. -/
theorem Divides.exists_tokenize_iff {source : List Char} {ls : List Lexeme}
    (h : Divides [] [] source ls) :
  (∃ tokens, RuleLang.tokenize source = .ok tokens) ↔ ∀ l ∈ ls, l.IsRead
  := by
  rw [← exists_toTokens_iff, h.tokenize]
  cases toTokens ls with
  | ok ts => exact ⟨fun _ => ⟨ts, rfl⟩, fun _ => ⟨_, rfl⟩⟩
  | error e => exact ⟨nofun, nofun⟩

end Lexeme

open Lexeme in
/-- What is found at the fault that is told of a text: a literal that stands for nothing, where
all lexemes before it stand for tokens, or a character at which no lexeme begins. -/
inductive Blames (source : List Char) (e : LexError) : Prop where
  | literal {before behind : List Char} {ls : List Lexeme} {l : Lexeme}
      (hsource : source = before ++ (l.text ++ behind))
      (hwhole : ∃ ls, Divides [] [] source ls) (hbefore : Divides (l.text ++ behind) [] before ls)
      (hread : ∀ l ∈ ls, l.IsRead) (hstart : l.start = .after before) {rest : List Lexeme}
      (hfault : l.toToken rest = .error e)
  | character {before rest : List Char} {c : Char} {ls : List Lexeme} {fault : LexFault}
      {text : List Char} (hsource : source = before ++ c :: rest)
      (hscan : lexemes source = .error e) (hbefore : Divides (c :: rest) [] before ls)
      (htake : take c rest = .error (fault, text))
      (hfault : e = ⟨fault, ⟨byteSize before, byteSize (before ++ text)⟩,
        (Position.after before).line, (Position.after before).column⟩)

/-- A fault between lexemes is told of a text. -/
theorem tokenize_of_lexemes {source : List Char} {e : LexError} (h : lexemes source = .error e) :
  tokenize source = .error e
  := by
  unfold tokenize
  rw [h]
  rfl

theorem blames_of_tokenize {source : List Char} {e : LexError} (h : tokenize source = .error e) :
  Blames source e
  := by
  obtain ⟨ls, hls⟩ | ⟨before, c, rest, ls, fault, text, hsource, hbefore, htake, hscan⟩ :=
    Lexeme.scan_cases [] (Nat.le_refl source.length)
  · rw [hls.tokenize] at h
    have hts : Lexeme.toTokens ls = .error e := by
      cases hts : Lexeme.toTokens ls with
      | ok ts =>
        rw [hts] at h
        cases h
      | error e' =>
        rw [hts] at h
        exact congrArg Except.error (Except.error.inj h)
    obtain ⟨ls₁, l, ls₂, hsplit, hread, hl⟩ := Lexeme.exists_of_toTokens_error hts
    obtain ⟨before, behind, hsource, hbefore, hstart⟩ := hls.split hsplit
    rw [List.append_nil] at hbefore
    exact .literal hsource ⟨ls, hls⟩ hbefore hread hstart hl
  · have he := Except.error.inj (h.symm.trans (tokenize_of_lexemes hscan))
    exact .character hsource (he ▸ hscan) hbefore htake he

/-- The fault of a text that is divided into lexemes as a whole is the first of all: what stands
before it has tokens. -/
theorem tokenize_before_literal {source : List Char} {found : List Lexeme × Position} {e : LexError}
    (hlexemes : lexemes source = .ok found) (h : tokenize source = .error e) :
  ∃ before behind, source = before ++ behind ∧ e.span.start = byteSize before
    ∧ (∃ ls, lexemes before = .ok (ls, .after before))
    ∧ ∃ tokens, tokenize before = .ok tokens
  := by
  cases blames_of_tokenize h with
  | @literal before behind ls l hsource hwhole hbefore hread hstart rest hfault =>
    obtain ⟨fault, k, -, rfl⟩ := Lexeme.toToken_eq_error_iff.mp hfault
    have hdivides := hbefore.of_isPrefix List.nil_prefix
    refine ⟨before, l.text ++ behind, hsource, ?_, ⟨ls, hdivides.lexemes⟩,
      hdivides.exists_tokenize_iff.mpr hread⟩
    change l.start.offset = _
    rw [hstart]
    rfl
  | character hsource hscan =>
    rw [hscan] at hlexemes
    cases hlexemes

/-- The fault that is told of a text is the first one of its kind.  What stands before it is
divided into lexemes, and has tokens unless the fault is a character at which no lexeme begins
and a literal before it is at fault; then the first such literal is told of what stands before
the character, and what stands before that literal has tokens. -/
theorem tokenize_before_error {source : List Char} {e : LexError}
    (h : tokenize source = .error e) :
  ∃ before behind, source = before ++ behind ∧ e.span.start = byteSize before
    ∧ (∃ ls, lexemes before = .ok (ls, .after before))
    ∧ ((∃ tokens, tokenize before = .ok tokens)
      ∨ lexemes source = .error e ∧ ∃ first, tokenize before = .error first
        ∧ ∃ before' behind', before = before' ++ behind' ∧ first.span.start = byteSize before'
          ∧ ∃ tokens, tokenize before' = .ok tokens)
  := by
  cases hlexemes : lexemes source with
  | ok found =>
    obtain ⟨before, behind, hsource, hstart, hdivides, htokens⟩ :=
      tokenize_before_literal hlexemes h
    exact ⟨before, behind, hsource, hstart, hdivides, .inl htokens⟩
  | error e' =>
    obtain rfl := Except.error.inj (h.symm.trans (tokenize_of_lexemes hlexemes))
    cases blames_of_tokenize h with
    | literal hsource hwhole =>
      obtain ⟨ls, hls⟩ := hwhole
      rw [hls.lexemes] at hlexemes
      cases hlexemes
    | @character before rest c ls fault text hsource hscan hbefore htake hfault =>
      have hbefore := (hbefore.of_isPrefix List.nil_prefix).lexemes
      refine ⟨before, c :: rest, hsource, by rw [hfault], ⟨ls, hbefore⟩, ?_⟩
      cases hfirst : tokenize before with
      | ok tokens => exact .inl ⟨tokens, rfl⟩
      | error first =>
        obtain ⟨before', behind', hsplit, hstart, -, htokens⟩ :=
          tokenize_before_literal hbefore hfirst
        exact .inr ⟨rfl, first, rfl, before', behind', hsplit, hstart, htokens⟩

/-- A stray character is told, not the escape before it that no string may hold. -/
theorem tokenize_before_error_escape :
  let source := "'\\q' @".toList
  let escape : LexError := ⟨.badEscape 'q', ⟨0, 4⟩, 1, 2⟩
  tokenize source = .error ⟨.stray '@', ⟨5, 6⟩, 1, 6⟩
    ∧ tokenize "'\\q' ".toList = .error escape
    ∧ ∃ before behind, source = before ++ behind ∧ byteSize before = 5
      ∧ ∃ ls, lexemes before = .ok (ls, .after before)
  := by
  intro source escape
  have hsource : tokenize source = .error ⟨.stray '@', ⟨5, 6⟩, 1, 6⟩ := rfl
  obtain ⟨before, behind, hsplit, hstart, hdivides, -⟩ := tokenize_before_error hsource
  exact ⟨hsource, rfl, before, behind, hsplit, hstart.symm, hdivides⟩

end RuleLang
