import RuleLang.Proofs.Outcome
import RuleLang.Token.Lexer

/-!
# How texts spell tokens

`Spells cs ks` says that the text `cs` spells tokens of the kinds `ks`, whatever the places
of the tokens in a larger text.  A text is divided into tokens exactly when it spells
them.
-/

namespace RuleLang

namespace Lexeme

/-- Whether a lexeme followed by tokens of the given kinds stands before an opening
parenthesis. -/
def beforeParen (ks : List TokenKind) : Bool := ks.head? = some (.symbol .leftParen)

/-- The kind of token that a lexeme of the given kind and text is, in front of tokens of the
kinds `ks`. -/
def kindBefore (kind : LexemeKind) (text : List Char) (ks : List TokenKind) :
    Except Misread TokenKind :=
  toKind ⟨kind, text, {}⟩ (beforeParen ks)

end Lexeme

/-- The text spells tokens of the given kinds. -/
inductive Spells : List Char → List TokenKind → Prop where
  | nil : Spells [] []
  | blank {c : Char} {cs : List Char} {ks : List TokenKind} (hc : Lexeme.isSeparator c)
      (h : Spells cs ks) :
    Spells (c :: cs) ks
  | lexeme {c : Char} {cs rest : List Char} {kind : LexemeKind} {k : TokenKind}
      {ks : List TokenKind} (hc : ¬Lexeme.isSeparator c)
      (htake : Lexeme.take c (cs ++ rest) = .ok (kind, c :: cs))
      (hkind : Lexeme.kindBefore kind (c :: cs) ks = .ok k) (h : Spells rest ks) :
    Spells (c :: cs ++ rest) (k :: ks)

namespace Lexeme

/-! ### Lexemes are beginnings of texts -/

/-- A beginning of a text and the beginning of what is left of it. -/
theorem append_isPrefix {as bs cs : List Char} (h : as <+: cs) (h' : bs <+: cs.drop as.length) :
  as ++ bs <+: cs
  := by
  obtain ⟨behind, rfl⟩ := h
  rw [List.drop_left] at h'
  exact (List.prefix_append_right_inj as).mpr h'

theorem exponentPart_isPrefix
    (cs : List Char) :
  exponentPart cs <+: cs
  := by
  have hmarked : ∀ (mark : Char) (sign rest : List Char), sign <+: rest →
      (if ((rest.drop sign.length).takeWhile Char.isDigit).isEmpty then []
        else (mark :: rest).take 1 ++ sign ++ (rest.drop sign.length).takeWhile Char.isDigit)
        <+: mark :: rest := by
    intro mark sign rest hsign
    split
    · apply List.nil_prefix
    · apply List.cons_prefix_cons.mpr
      use rfl
      apply append_isPrefix hsign (List.takeWhile_prefix _)
  unfold exponentPart
  split
  · dsimp only
    split
    · apply hmarked _ _ _ (List.take_prefix _ _)
    · apply hmarked _ _ _ (List.take_prefix _ _)
    · apply hmarked _ _ _ List.nil_prefix
  · dsimp only
    split
    · apply hmarked _ _ _ (List.take_prefix _ _)
    · apply hmarked _ _ _ (List.take_prefix _ _)
    · apply hmarked _ _ _ List.nil_prefix
  · apply List.nil_prefix

theorem numberPart_isPrefix
    (cs : List Char) :
  (numberPart cs).2 <+: cs
  := by
  have hwhole : cs.takeWhile Char.isDigit <+: cs := List.takeWhile_prefix _
  unfold numberPart
  dsimp only
  split
  · rename_i rest hrest
    split
    · apply hwhole
    · apply append_isPrefix hwhole
      rw [hrest]
      apply List.cons_prefix_cons.mpr
      use rfl
      apply append_isPrefix (List.takeWhile_prefix _) (exponentPart_isPrefix _)
  · apply hwhole

/-- The inside of a string and its closing quote begin the text. -/
theorem eq_append_of_stringPart {quote : Char} {cs inside : List Char}
    (h : stringPart quote cs = (inside, true)) :
  ∃ behind, cs = inside ++ quote :: behind
  := by
  fun_induction stringPart quote cs generalizing inside with
  | case1 => cases h
  | case2 => cases h
  | case3 d rest =>
    obtain ⟨rfl, -⟩ := Prod.mk.inj h
    use d :: rest
    rfl
  | case4 => cases h
  | case5 d rest _ inside' closed hpart _ ih =>
    obtain ⟨rfl, rfl⟩ := Prod.mk.inj h
    obtain ⟨behind, rfl⟩ := ih hpart
    use behind
    rfl
  | case6 c d rest _ _ inside' closed hpart ih =>
    obtain ⟨rfl, rfl⟩ := Prod.mk.inj h
    obtain ⟨behind, hrest⟩ := ih hpart
    use behind
    rw [hrest]
    rfl
  | case7 =>
    obtain ⟨rfl, -⟩ := Prod.mk.inj h
    use []
    rfl
  | case8 => cases h

/-- A character that is neither a quote nor a backslash is inside a string that goes on. -/
theorem stringPart_cons {quote c : Char} {cs inside : List Char} (hquote : c ≠ quote)
    (hbackslash : c ≠ '\\') (h : stringPart quote cs = (inside, true)) :
  stringPart quote (c :: cs) = (c :: inside, true)
  := by
  cases cs with
  | nil => cases h
  | cons d cs =>
    rw [stringPart, if_neg hquote, if_neg hbackslash, h]

/-- A backslash takes the character behind it along. -/
theorem stringPart_escape {quote c : Char} {cs inside : List Char} (hquote : '\\' ≠ quote)
    (hc : c ≠ '\n') (h : stringPart quote cs = (inside, true)) :
  stringPart quote ('\\' :: c :: cs) = ('\\' :: c :: inside, true)
  := by
  rw [stringPart, if_neg hquote, if_pos rfl, if_neg hc, h]

/-- A number that begins with a digit is not empty. -/
theorem numberPart_ne_nil {c : Char} (hc : c.isDigit) (rest : List Char) :
  (numberPart (c :: rest)).2 ≠ []
  := by
  unfold numberPart
  rw [List.takeWhile_cons_of_pos hc]
  dsimp only
  split
  · split
    · apply List.cons_ne_nil
    · apply List.cons_ne_nil
  · apply List.cons_ne_nil

/-- A text that is not empty and begins another begins it with the same character. -/
theorem exists_of_isPrefix_cons {c : Char} {text rest : List Char} (hne : text ≠ [])
    (h : text <+: c :: rest) :
  ∃ cs behind, text = c :: cs ∧ rest = cs ++ behind
  := by
  cases text with
  | nil => contradiction
  | cons d cs =>
    obtain ⟨rfl, behind, rfl⟩ := List.cons_prefix_cons.mp h
    exact ⟨cs, behind, rfl, rfl⟩

/-- The text of a lexeme is a beginning of the text it is taken from. -/
theorem exists_append_of_take {c : Char} {rest text : List Char} {kind : LexemeKind}
    (h : take c rest = .ok (kind, text)) :
  ∃ cs behind, text = c :: cs ∧ rest = cs ++ behind
  := by
  unfold take at h
  split at h
  · obtain ⟨-, rfl⟩ := Prod.mk.inj (Except.ok.inj h)
    exact ⟨_, _, rfl, (List.takeWhile_append_dropWhile (p := isWordChar)).symm⟩
  · split at h
    · rename_i hdigit
      obtain rfl : (numberPart (c :: rest)).2 = text := by rw [Except.ok.inj h]
      apply exists_of_isPrefix_cons (numberPart_ne_nil hdigit rest) (numberPart_isPrefix _)
    · split at h
      · split at h
        · rename_i inside hinside
          obtain ⟨-, rfl⟩ := Prod.mk.inj (Except.ok.inj h)
          obtain ⟨behind, rfl⟩ := eq_append_of_stringPart hinside
          exact ⟨inside ++ [c], behind, rfl, by simp⟩
        · cases h
      · split at h
        · dsimp only at h
          split at h
          · rename_i hash hclosed
            obtain ⟨-, rfl⟩ := Prod.mk.inj (Except.ok.inj h)
            obtain ⟨behind, hbehind⟩ := List.head?_eq_some_iff.mp hclosed
            have hinside := List.prefix_iff_eq_append.mp
              (List.takeWhile_prefix (fun d => decide (d ≠ '#' ∧ d ≠ '\n')) (l := rest))
            rw [hbehind] at hinside
            exact ⟨_, behind, rfl, by simpa using hinside.symm⟩
          · cases h
        · split at h
          · rename_i text' s hfind
            obtain ⟨-, rfl⟩ := Prod.mk.inj (Except.ok.inj h)
            have hne : ∀ p ∈ Symbol.spellings, p.1 ≠ [] := by decide
            have hprefix := List.find?_some hfind
            apply exists_of_isPrefix_cons (hne _ (List.mem_of_find?_eq_some hfind))
            apply List.isPrefixOf_iff_prefix.mp hprefix
          · cases h

/-! ### Tokens of lexemes -/

/-- A token is an opening parenthesis if the lexeme is one. -/
theorem eq_leftParen_iff {l : Lexeme} {b : Bool} {k : TokenKind} (h : l.toKind b = .ok k) :
  k = .symbol .leftParen ↔ l.kind = .symbol .leftParen
  := by
  obtain ⟨kind, text, start⟩ := l
  cases kind
  case symbol s =>
    obtain rfl := Except.ok.inj h
    simp
  case word =>
    obtain rfl := Except.ok.inj h
    cases b <;> simp
  case truth t =>
    obtain rfl := Except.ok.inj h
    simp
  case integer =>
    obtain ⟨n, -, rfl⟩ := Except.map_eq_ok_iff.mp h
    simp
  case decimal =>
    obtain ⟨x, -, rfl⟩ := Except.map_eq_ok_iff.mp h
    simp
  case string =>
    obtain ⟨s, -, rfl⟩ := Except.map_eq_ok_iff.mp h
    simp
  case date =>
    simp only [toKind, readDate] at h
    split at h
    · split at h
      · obtain rfl := Except.ok.inj h
        simp
      · cases h
    · split at h
      · obtain rfl := Except.ok.inj h
        simp
      · cases h

/-- A lexeme makes a token exactly when it has a kind of token. -/
theorem toToken_eq_ok_iff {l : Lexeme} {rest : List Lexeme} {t : Token} :
  l.toToken rest = .ok t
    ↔ ∃ k, l.toKind (rest.head?.any (·.kind = .symbol .leftParen)) = .ok k
      ∧ t = ⟨k, l.span, l.start.line, l.start.column, l.text.length⟩
  := by
  unfold toToken
  cases h : l.toKind (rest.head?.any (·.kind = .symbol .leftParen)) with
  | ok k => simp [h, eq_comm]
  | error e => simp [h]

/-- Lexemes stand before an opening parenthesis exactly if their tokens do. -/
theorem beforeParen_of_toTokens {ls : List Lexeme} {ts : List Token}
    (h : toTokens ls = .ok ts) :
  ls.head?.any (·.kind = .symbol .leftParen) = beforeParen (ts.map Token.kind)
  := by
  cases ls with
  | nil =>
    obtain rfl := Except.ok.inj h
    rfl
  | cons l ls =>
    obtain ⟨t, ht, h⟩ := Except.bind_eq_ok_iff.mp h
    obtain ⟨ts', hts, h⟩ := Except.bind_eq_ok_iff.mp h
    obtain rfl := Except.ok.inj h
    obtain ⟨k, hk, rfl⟩ := toToken_eq_ok_iff.mp ht
    simp [beforeParen, eq_leftParen_iff hk]

/-- The lexemes of a text whose tokens can be told are what the text spells. -/
theorem spells_of_scan {fuel : Nat} {p stop : Position} {cs : List Char} {ls : List Lexeme}
    {ts : List Token} (hfuel : cs.length ≤ fuel) (hscan : scan fuel p cs = .ok (ls, stop))
    (hts : toTokens ls = .ok ts) :
  Spells cs (ts.map Token.kind)
  := by
  induction fuel generalizing p cs ls ts with
  | zero =>
    obtain rfl := List.length_eq_zero_iff.mp (Nat.le_zero.mp hfuel)
    obtain ⟨rfl, -⟩ := Prod.mk.inj (Except.ok.inj hscan)
    obtain rfl := Except.ok.inj hts
    exact .nil
  | succ fuel ih =>
    cases cs with
    | nil =>
      obtain ⟨rfl, -⟩ := Prod.mk.inj (Except.ok.inj hscan)
      obtain rfl := Except.ok.inj hts
      exact .nil
    | cons c rest =>
      rw [List.length_cons] at hfuel
      rw [scan] at hscan
      split at hscan
      · rename_i hc
        exact .blank hc (ih (by omega) hscan hts)
      · rename_i hc
        split at hscan
        · rename_i kind text htake
          obtain ⟨⟨ls', stop'⟩, hscan', h⟩ := Except.bind_eq_ok_iff.mp hscan
          obtain ⟨rfl, rfl⟩ := Prod.mk.inj (Except.ok.inj h)
          obtain ⟨t, ht, h⟩ := Except.bind_eq_ok_iff.mp hts
          obtain ⟨ts', hts', h⟩ := Except.bind_eq_ok_iff.mp h
          obtain rfl := Except.ok.inj h
          obtain ⟨k, hk, rfl⟩ := toToken_eq_ok_iff.mp ht
          obtain ⟨cs, behind, rfl, rfl⟩ := exists_append_of_take htake
          rw [← List.cons_append, List.drop_left] at hscan'
          rw [beforeParen_of_toTokens hts'] at hk
          rw [List.length_append] at hfuel
          exact .lexeme hc htake hk (ih (by omega) hscan' hts')
        · cases hscan

/-- A text that spells tokens is divided into lexemes that make them. -/
theorem exists_scan_of_spells {cs : List Char} {ks : List TokenKind} (h : Spells cs ks)
    {fuel : Nat} (hfuel : cs.length ≤ fuel) (p : Position) :
  ∃ ls stop ts, scan fuel p cs = .ok (ls, stop) ∧ toTokens ls = .ok ts
    ∧ ts.map Token.kind = ks
  := by
  induction h generalizing fuel p with
  | nil =>
    use [], p, []
    cases fuel <;> exact ⟨rfl, rfl, rfl⟩
  | @blank c cs ks hc h ih =>
    rw [List.length_cons] at hfuel
    obtain ⟨fuel, rfl⟩ : ∃ n, fuel = n + 1 := Nat.exists_eq_succ_of_ne_zero (by omega)
    obtain ⟨ls, stop, ts, hscan, hts, hks⟩ := ih (by omega : cs.length ≤ fuel) (p.advance c)
    use ls, stop, ts
    rw [scan, if_pos hc]
    exact ⟨hscan, hts, hks⟩
  | @lexeme c cs rest kind k ks hc htake hkind h ih =>
    rw [List.length_append, List.length_cons] at hfuel
    obtain ⟨fuel, rfl⟩ : ∃ n, fuel = n + 1 := Nat.exists_eq_succ_of_ne_zero (by omega)
    let l : Lexeme := ⟨kind, c :: cs, p⟩
    obtain ⟨ls, stop, ts, hscan, hts, rfl⟩ := ih (by omega : rest.length ≤ fuel) l.stop
    let t : Token := ⟨k, l.span, l.start.line, l.start.column, l.text.length⟩
    use l :: ls, stop, t :: ts
    constructor
    · rw [List.cons_append, scan, if_neg hc, htake]
      have hdrop : (c :: (cs ++ rest)).drop (c :: cs).length = rest := List.drop_left
      dsimp only
      rw [hdrop]
      apply Except.bind_eq_ok_iff.mpr
      exact ⟨(ls, stop), hscan, rfl⟩
    · constructor
      · have ht : l.toToken ls = .ok t := by
          apply toToken_eq_ok_iff.mpr
          use k
          rw [beforeParen_of_toTokens hts]
          exact ⟨hkind, rfl⟩
        rw [toTokens, ht, hts]
        rfl
      · rfl

end Lexeme

/-- A text is divided into tokens of certain kinds exactly when it spells them. -/
theorem spells_iff {cs : List Char} {ks : List TokenKind} :
  Spells cs ks ↔ ∃ ts, tokenize cs = .ok ts ∧ ts.map Token.kind = ks ++ [.eof]
  := by
  constructor
  · intro h
    obtain ⟨ls, stop, ts, hscan, hts, rfl⟩ :=
      Lexeme.exists_scan_of_spells h (Nat.le_refl _) {}
    use ts ++ [.atEnd stop]
    constructor
    · apply Except.bind_eq_ok_iff.mpr
      use (ls, stop), hscan
      apply Except.bind_eq_ok_iff.mpr
      use ts, hts
      rfl
    · rw [List.map_append]
      rfl
  · rintro ⟨ts, h, hks⟩
    obtain ⟨⟨ls, stop⟩, hscan, h⟩ := Except.bind_eq_ok_iff.mp h
    obtain ⟨ts', hts, h⟩ := Except.bind_eq_ok_iff.mp h
    obtain rfl := Except.ok.inj h
    rw [List.map_append] at hks
    obtain ⟨rfl, -⟩ := List.append_inj' hks rfl
    apply Lexeme.spells_of_scan (Nat.le_refl _) hscan hts

end RuleLang
