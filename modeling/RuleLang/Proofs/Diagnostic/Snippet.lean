import RuleLang.Diagnostic
import RuleLang.Proofs.Grammar.Blame
import RuleLang.Proofs.Text.Lines
import RuleLang.Proofs.Token.Faults

/-!
# The line that a report shows

A report of a fault in the text of an expression names a line and shows one.  The line is shown in
which the part at fault begins, and the line is named in which the place of the fault lies.  The
two are the same, but for an escape that no string may hold: its place is that of the backslash,
and the part at fault is the string.
-/

namespace RuleLang

/-- Whether what is told lies in a text at `inside ++ part` behind `before`, its line being that
of the place behind `inside`. -/
structure Located.LiesIn {α : Type} (e : Located α) (source before inside part : List Char) :
    Prop where
  isPrefix : before ++ (inside ++ part) <+: source
  span_eq : e.span = ⟨byteSize before, byteSize (before ++ (inside ++ part))⟩
  line_eq : e.line = 1 + (before ++ inside).count '\n'

/-! ### Faults of texts -/

namespace Lexeme

/-- An escape is at fault behind the characters that are counted before it. -/
theorem readEscapes_error {n k : Nat} {cs : List Char} {fault : LexFault}
    (h : readEscapes n cs = .error (fault, k)) :
  k = 0 ∨ ∃ c rest, fault = .badEscape c ∧ n ≤ k ∧ cs.drop (k - n) = '\\' :: c :: rest
  := by
  fun_induction readEscapes n cs with
  | case1 => cases h
  | case2 =>
    obtain ⟨-, rfl⟩ := Prod.mk.inj (Except.error.inj h)
    exact .inl rfl
  | case3 n c rest meant hmeant ih =>
    obtain hk | ⟨c', rest', hfault, hle, hdrop⟩ := ih (Except.map_eq_error_iff.mp h)
    · exact .inl hk
    · refine .inr ⟨c', rest', hfault, by omega, ?_⟩
      rw [show k - n = k - (n + 2) + 2 by omega]
      apply hdrop
  | case4 n c rest hnone =>
    obtain ⟨rfl, rfl⟩ := Prod.mk.inj (Except.error.inj h)
    exact .inr ⟨c, rest, rfl, Nat.le_refl n, by simp⟩
  | case5 n c rest _ _ ih =>
    obtain hk | ⟨c', rest', hfault, hle, hdrop⟩ := ih (Except.map_eq_error_iff.mp h)
    · exact .inl hk
    · refine .inr ⟨c', rest', hfault, by omega, ?_⟩
      rw [show k - n = k - (n + 1) + 1 by omega]
      apply hdrop

/-- A literal is at fault as a whole, or at an escape in it. -/
theorem toKind_error {l : Lexeme} {fault : LexFault} {k : Nat}
    (h : l.toKind false = .error (fault, k)) :
  k = 0 ∨ ∃ c rest, fault = .badEscape c ∧ l.text.drop k = '\\' :: c :: rest
  := by
  obtain ⟨kind, text, start⟩ := l
  cases kind with
  | symbol s => cases h
  | word => cases h
  | truth b => cases h
  | integer =>
    have h := Except.map_eq_error_iff.mp h
    unfold readInteger at h
    split at h
    · cases h
    · obtain ⟨-, rfl⟩ := Prod.mk.inj (Except.error.inj h)
      exact .inl rfl
  | decimal =>
    have h := Except.map_eq_error_iff.mp h
    unfold readDecimal at h
    dsimp only at h
    split_ifs at h
    obtain ⟨-, rfl⟩ := Prod.mk.inj (Except.error.inj h)
    exact .inl rfl
  | string =>
    have h := Except.map_eq_error_iff.mp (Except.map_eq_error_iff.mp h)
    obtain hk | ⟨c, rest, hfault, hle, hdrop⟩ := readEscapes_error h
    · exact .inl hk
    · -- the closing quote stands behind the escape
      obtain ⟨behind, hbehind⟩ := drop_isPrefix_drop (k - 1) (List.dropLast_prefix (text.drop 1))
      rw [hdrop, List.drop_drop, Nat.add_sub_cancel' hle] at hbehind
      exact .inr ⟨c, rest ++ behind, hfault, hbehind.symm⟩
  | date =>
    unfold toKind readDate at h
    dsimp only at h
    split_ifs at h
    · split at h
      · cases h
      · obtain ⟨-, rfl⟩ := Prod.mk.inj (Except.error.inj h)
        exact .inl rfl
    · split at h
      · cases h
      · obtain ⟨-, rfl⟩ := Prod.mk.inj (Except.error.inj h)
        exact .inl rfl

end Lexeme

/-- A fault of a text is told where the part at fault begins, or at an escape in it. -/
theorem exists_liesIn_of_tokenize {source : List Char} {e : LexError}
    (h : tokenize source = .error e) :
  ∃ before inside part, e.LiesIn source before inside part
    ∧ (inside = [] ∨ ∃ c rest, e.cause = .badEscape c ∧ part = '\\' :: c :: rest)
  := by
  cases blames_of_tokenize h with
  | @literal before behind ls l hsource hwhole hbefore hread hstart rest hfault =>
    obtain ⟨fault, k, hkind, rfl⟩ := Lexeme.toToken_eq_error_iff.mp hfault
    use before, l.text.take k, l.text.drop k
    constructor
    · rw [hstart, Position.advanceBy_after]
      constructor
      · rw [List.take_append_drop, hsource, ← List.append_assoc]
        apply List.prefix_append
      · rw [List.take_append_drop, Lexeme.span, Lexeme.stop, hstart, Position.advanceBy_after]
        rfl
      · rfl
    · obtain rfl | ⟨c, rest, rfl, hdrop⟩ := Lexeme.toKind_error hkind
      · exact .inl List.take_zero
      · exact .inr ⟨c, rest, rfl, hdrop⟩
  | @character before rest c ls fault text hsource hscan hbefore htake hfault =>
    refine ⟨before, [], text, ?_, .inl rfl⟩
    constructor
    · rw [hsource]
      exact (List.prefix_append_right_inj before).mpr (Lexeme.isPrefix_of_take_error htake)
    · rw [hfault]
      rfl
    · rw [hfault, List.append_nil]
      rfl

/-! ### Faults of tokens -/

/-- The tokens of a text tile it, with the end of input behind it. -/
theorem tiles_of_tokenize {source : List Char} {tokens : List Token}
    (h : tokenize source = .ok tokens) :
  ∃ ts, tokens = ts ++ [.atEnd (.after source)] ∧ Tiles source [] source ts
  := by
  obtain ⟨⟨ls, stop⟩, hscan, h⟩ := Except.bind_eq_ok_iff.mp h
  obtain ⟨ts, hts, h⟩ := Except.bind_eq_ok_iff.mp h
  obtain rfl := Except.ok.inj h
  obtain ⟨htiles, rfl⟩ := Lexeme.tiles_of_scan [] (Nat.le_refl _) hscan hts
  exact ⟨ts, rfl, htiles⟩

/-- A fault in the structure of an expression is told where the token at fault begins. -/
theorem exists_liesIn_of_ofTokens {source : List Char} {tokens : List Token} {limit : Nat}
    {e : ParseError} (htokens : tokenize source = .ok tokens)
    (h : Expr.ofTokens limit tokens = .error e) :
  ∃ before part, e.LiesIn source before [] part
  := by
  obtain ⟨ts, rfl, htiles⟩ := tiles_of_tokenize htokens
  obtain ⟨t, ht, he⟩ := Expr.exists_located_of_ofTokens h
  have hlast : Token.endOf (ts ++ [.atEnd (.after source)])
      = ⟨.eof, .point (byteSize source), 1 + source.count '\n',
        (Position.after source).column % Token.columnCount, 0⟩ := by
    unfold Token.endOf
    rw [List.getLast?_concat]
    rfl
  have hend : ∀ t : Token, t.span = .point (byteSize source) → t.line = 1 + source.count '\n' →
      (e.cause.located t).LiesIn source source [] [] := by
    intro t hspan hline
    constructor
    · rw [List.append_nil]
      simp
    · simp [ParseFault.located, hspan, Span.point]
    · simp [ParseFault.located, hline]
  rw [he]
  obtain ht | ht := List.mem_append.mp ht
  · obtain ht | ht := List.mem_append.mp ht
    · obtain ⟨-, before, text, -, hcovers⟩ := htiles.covers t ht
      refine ⟨before, text, hcovers.isPrefix, hcovers.span_eq, ?_⟩
      rw [List.append_nil]
      apply hcovers.line_eq
    · obtain rfl := List.mem_singleton.mp ht
      exact ⟨source, [], hend _ rfl rfl⟩
  · obtain rfl := List.mem_singleton.mp ht
    exact ⟨source, [], hend _ (by rw [hlast]) (by rw [hlast])⟩

/-! ### The line that is shown -/

namespace Located.LiesIn

variable {α : Type} {e : Located α} {source before inside part : List Char}

/-- The range of what is told holds what lies there. -/
theorem slice? (h : e.LiesIn source before inside part) :
  e.span.slice? source = some (inside ++ part)
  := by
  obtain ⟨⟨behind, rfl⟩, hspan, -⟩ := h
  rw [hspan]
  unfold Span.slice?
  dsimp only
  rw [if_pos (by simp), List.append_assoc, dropBytes?_byteSize_append, byteSize_append,
    Nat.add_sub_cancel_left]
  apply takeBytes?_byteSize_append

/-- The line is shown in which the range begins. -/
theorem locate? (h : e.LiesIn source before inside part) :
  ∃ s line, Snippet.locate? source e.span = some s
    ∧ (Text.split '\n' source)[before.count '\n']? = some line
    ∧ s.line = Text.dropEndWhile (· = '\r') line
  := by
  obtain ⟨⟨behind, rfl⟩, hspan, -⟩ := h
  have hstart : min (byteSize before) (byteSize (before ++ ((inside ++ part) ++ behind)))
      = byteSize before := by
    rw [byteSize_append before]
    exact Nat.min_eq_left (Nat.le_add_right _ _)
  rw [hspan, List.append_assoc]
  unfold Snippet.locate?
  dsimp only
  rw [hstart, takeBytes?_byteSize_append, dropBytes?_byteSize_append]
  exact ⟨_, _, rfl, Text.getElem?_split_count before _, rfl⟩

end Located.LiesIn

namespace Diagnostic

/-- A report with the line around the place. -/
theorem positioned_of_locate? {α : Type} (colored : Bool) (describe : α → String) {e : Located α}
    {source : List Char} {s : Snippet} (h : Snippet.locate? source e.span = some s) :
  let number := toString e.line
  let bar := paint colored .gutter (blanks number.length ++ " |")
  positioned colored describe e (some source)
    = header colored none (describe e.cause)
      ++ blanks number.length ++ paint colored .gutter "-->" ++ " " ++ number ++ ":"
      ++ toString e.column ++ "\n"
      ++ (bar ++ "\n" ++ paint colored .gutter (number ++ " |") ++ " " ++ String.ofList s.line ++ "\n"
        ++ bar ++ " "
        ++ paint colored .error (blanks s.offset ++ String.ofList (List.replicate s.width '^'))
        ++ "\n")
  := by
  unfold positioned
  simp only [Option.bind_some, h]

end Diagnostic

/-- What an error tells of a place in a text, with its wording. -/
def RuleError.located? : RuleError → Option (Located String)
  | lex e => some ⟨e.cause.message, e.span, e.line, e.column⟩
  | parse e => some ⟨e.cause.message, e.span, e.line, e.column⟩
  | eval _ | wire _ => none

theorem Diagnostic.render_of_located? (colored : Bool) (source : Option (List Char))
    {err : RuleError} {e : Located String} (h : err.located? = some e) :
  render colored source err = positioned colored id e source
  := by
  cases err with
  | lex | parse =>
    obtain rfl := Option.some.inj h
    rfl
  | eval | wire => cases h

/-- What is told of a text that is no expression lies in it. -/
theorem Expr.exists_liesIn_of_read {limit : Nat} {source : List Char} {err : RuleError}
    (h : Expr.read limit source = .error err) :
  ∃ e before inside part, err.located? = some e ∧ e.LiesIn source before inside part
    ∧ (inside = [] ∨ ∃ fault c rest, err = .lex fault ∧ fault.cause = .badEscape c
      ∧ part = '\\' :: c :: rest)
  := by
  obtain h | ⟨tokens, htokens, h⟩ := Except.bind_eq_error_iff.mp h
  · cases htokens : tokenize source with
    | ok tokens =>
      rw [htokens] at h
      cases h
    | error fault =>
      rw [htokens] at h
      obtain rfl := Except.error.inj h
      obtain ⟨before, inside, part, hlies, hinside⟩ := exists_liesIn_of_tokenize htokens
      refine ⟨_, before, inside, part, rfl, ⟨hlies.isPrefix, hlies.span_eq, hlies.line_eq⟩, ?_⟩
      obtain hinside | ⟨c, rest, hcause, hpart⟩ := hinside
      · exact .inl hinside
      · exact .inr ⟨fault, c, rest, rfl, hcause, hpart⟩
  · cases he : Expr.ofTokens limit tokens with
    | ok e =>
      rw [he] at h
      cases h
    | error fault =>
      rw [he] at h
      obtain rfl := Except.error.inj h
      obtain ⟨before, part, hlies⟩ :=
        exists_liesIn_of_ofTokens (Except.mapError_eq_ok_iff.mp htokens) he
      exact ⟨_, before, [], part, rfl, ⟨hlies.isPrefix, hlies.span_eq, hlies.line_eq⟩, .inl rfl⟩

/-- The report of a text that is no expression names a line, in the margin as well, and shows a
line of the text without the carriage returns at its end.  The line that is named is the one that
is shown, unless a string holds an escape that it may not hold: then it is as many lines further
as there are line feeds in the string before the backslash. -/
theorem Expr.render_of_read {limit : Nat} {source : List Char} {err : RuleError} (colored : Bool)
    (h : Expr.read limit source = .error err) :
  ∃ e s line shown inside part, err.located? = some e
    ∧ (Text.split '\n' source)[shown]? = some line ∧ s.line = Text.dropEndWhile (· = '\r') line
    ∧ e.span.slice? source = some (inside ++ part) ∧ e.line = shown + 1 + inside.count '\n'
    ∧ (inside = [] ∨ ∃ fault c rest, err = .lex fault ∧ fault.cause = .badEscape c
      ∧ part = '\\' :: c :: rest)
    ∧ Snippet.locate? source e.span = some s
    ∧ let number := toString e.line
      let bar := Diagnostic.paint colored .gutter (Diagnostic.blanks number.length ++ " |")
      Diagnostic.render colored (some source) err
        = Diagnostic.header colored none e.cause
          ++ Diagnostic.blanks number.length ++ Diagnostic.paint colored .gutter "-->" ++ " "
          ++ number ++ ":" ++ toString e.column ++ "\n"
          ++ (bar ++ "\n" ++ Diagnostic.paint colored .gutter (number ++ " |") ++ " "
            ++ String.ofList s.line ++ "\n" ++ bar ++ " "
            ++ Diagnostic.paint colored .error
              (Diagnostic.blanks s.offset ++ String.ofList (List.replicate s.width '^')) ++ "\n")
  := by
  obtain ⟨e, before, inside, part, he, hlies, hinside⟩ := Expr.exists_liesIn_of_read h
  obtain ⟨s, line, hlocate, hsplit, hline⟩ := hlies.locate?
  refine ⟨e, s, line, before.count '\n', inside, part, he, hsplit, hline, hlies.slice?, ?_, hinside,
    hlocate, ?_⟩
  · rw [hlies.line_eq, List.count_append]
    omega
  · rw [Diagnostic.render_of_located? colored (some source) he]
    apply Diagnostic.positioned_of_locate? colored id hlocate

/-- The report of an escape in the second line of a string names that line and shows the first. -/
theorem Expr.render_of_read_escape :
  let source := "'a\n\\q'".toList
  let err : RuleError := .lex ⟨.badEscape 'q', ⟨0, 6⟩, 2, 1⟩
  Expr.read defaultDepth source = .error err
    ∧ Diagnostic.render false (some source) err
      = "error: invalid escape sequence '\\q'\n --> 2:1\n  |\n2 | 'a\n  | ^^\n"
    ∧ ∃ e inside part, err.located? = some e ∧ e.span.slice? source = some (inside ++ part)
      ∧ ∃ shown, (Text.split '\n' source)[shown]?.isSome ∧ e.line = shown + 1 + inside.count '\n'
  := by
  intro source err
  have hread : Expr.read defaultDepth source = .error err := rfl
  obtain ⟨e, s, line, shown, inside, part, he, hsplit, -, hslice, hline, -⟩ :=
    Expr.render_of_read false hread
  exact ⟨hread, by decide, e, inside, part, he, hslice, shown, by simp [hsplit], hline⟩

end RuleLang
