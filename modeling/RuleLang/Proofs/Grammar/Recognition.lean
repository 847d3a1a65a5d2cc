import RuleLang.Proofs.Grammar.Completeness

/-!
# Reading whole expressions

The parser accepts exactly what the grammar derives.  That it reads one tree only makes the
grammar unambiguous.
-/

namespace RuleLang

namespace Expr

/-! ### Whole expressions -/

variable {limit : Nat} {tokens body : List Token} {last : Token} {e : Expr}

/-- An expression is read when the level of expressions reads it up to the end. -/
theorem ofTokens_eq_ok_iff :
  ofTokens limit tokens = .ok e
    ↔ ∃ t, Parser.Yields (Parser.level limit .expression) limit ⟨.ofTokens tokens, 0⟩ e t
      ∧ t.kind = .eof
  := by
  constructor
  · intro h
    obtain ⟨⟨e', t⟩, hwhole, h⟩ := Except.bind_eq_ok_iff.mp h
    obtain rfl := Except.ok.inj h
    have hyields : Parser.whole.Yields limit ⟨.ofTokens tokens, 0⟩ e' t := hwhole
    obtain ⟨e, u, he, hend⟩ := Parser.yields_bind.mp (Parser.yields_bind_read.mp hyields)
    obtain ⟨hkind, hend⟩ | ⟨-, hend⟩ := Parser.yields_ite.mp (Parser.yields_bind_get.mp hend)
    · obtain ⟨rfl, rfl⟩ := Parser.yields_pure.mp hend
      use t, he, of_decide_eq_true hkind
    · cases Parser.yields_fail.mp hend
  · rintro ⟨t, he, hend⟩
    have hwhole : Parser.whole.Yields limit ⟨.ofTokens tokens, 0⟩ e t := by
      apply Parser.yields_bind_read.mpr
      apply Parser.yields_bind.mpr
      use e, t, he
      apply Parser.yields_bind_get.mpr
      apply Parser.yields_ite.mpr
      left
      use decide_eq_true hend
      exact Parser.yields_pure.mpr ⟨rfl, rfl⟩
    apply Except.bind_eq_ok_iff.mpr
    use (e, t), hwhole
    rfl

/-- What is read is derived from the tokens gone over, behind which stands an end. -/
theorem exists_derives_of_ofTokens (h : ofTokens limit tokens = .ok e) :
  ∃ read rest, tokens = read ++ rest ∧ Parser.kindAhead (.endOf tokens) rest = .eof
    ∧ DerivesTree e (read.map Token.kind)
  := by
  obtain ⟨t, he, hend⟩ := ofTokens_eq_ok_iff.mp h
  have hstart := ParserState.within_start limit tokens
  have hreads := Parser.reads_level limit .expression _ _ hstart rfl
  obtain ⟨ht, -, _, ⟨-, read, rfl, hread⟩, hderives⟩ := hreads.ends he
  use read, t.cursor.rest, hread
  constructor
  · rw [Parser.kindAhead, ← ht.last_eq]
    apply hend
  · apply hderives

/-- What is derived from all tokens before the end is what is derived from the tokens gone over. -/
theorem derives_of_ofTokens (hlast : last.kind = .eof) (hbody : ∀ t ∈ body, t.kind ≠ .eof)
    (h : ofTokens limit (body ++ [last]) = .ok e) :
  DerivesTree e (body.map Token.kind)
  := by
  obtain ⟨read, rest, hsplit, hend, hderives⟩ := exists_derives_of_ofTokens h
  have hfree : .eof ∉ read.map Token.kind := hderives.eof_not_mem
  obtain ⟨behind, rfl, hlast'⟩ | ⟨behind, rfl, rfl⟩ := List.append_eq_append_iff.mp hsplit
  · cases behind with
    | nil =>
      rw [List.append_nil] at hderives
      apply hderives
    | cons token behind =>
      obtain ⟨rfl, -⟩ := List.cons.inj hlast'
      simp [hlast] at hfree
  · cases behind with
    | nil =>
      rw [List.append_nil]
      apply hderives
    | cons token behind => cases hbody token (by simp) hend

/-- What is derived from tokens behind which stands an end is read exactly under the limits that
lie beyond the descent of the derivation. -/
theorem ofTokens_append_eq_ok_iff {read rest : List Token} {d : Descent}
    (hend : Parser.kindAhead (.endOf (read ++ rest)) rest = .eof)
    (h : Descends (.tree .disjunction e) d (read.map Token.kind)) :
  ofTokens limit (read ++ rest) = .ok e ↔ d.deepest < limit
  := by
  have hcomplete : Parser.CompleteTree limit (.endOf (read ++ rest)) .disjunction e d _ :=
    Parser.complete_of_descends h
  have hstops : Nonterminal.disjunction.Stops
      (Parser.kindAhead (.endOf (read ++ rest)) rest) := by
    rw [hend]
    trivial
  have hneeds := hcomplete.level (l := .expression) 0 rfl hstops (Nat.le_refl limit)
  rw [Nat.zero_add, Descent.deepest_nested] at hneeds
  rw [ofTokens_eq_ok_iff]
  constructor
  · rintro ⟨t, he, -⟩
    exact ((hneeds e t).mp he).1
  · intro hlt
    exact ⟨_, hneeds.yields hlt, hend⟩

/-- What is derived from all tokens before the end is read exactly under the limits that lie
beyond the descent of the derivation. -/
theorem ofTokens_eq_ok_iff_of_descends {d : Descent} (hlast : last.kind = .eof)
    (h : Descends (.tree .disjunction e) d (body.map Token.kind)) :
  ofTokens limit (body ++ [last]) = .ok e ↔ d.deepest < limit
  := ofTokens_append_eq_ok_iff hlast h

/-- What is read has a descent that the limit allows. -/
theorem exists_descends_of_ofTokens (h : ofTokens limit tokens = .ok e) :
  ∃ d ks, Descends (.tree .disjunction e) d ks ∧ d.deepest < limit
  := by
  obtain ⟨read, rest, rfl, hend, hderives⟩ := exists_derives_of_ofTokens h
  obtain ⟨d, hd⟩ := hderives.exists_descends
  exact ⟨d, _, hd, (ofTokens_append_eq_ok_iff hend hd).mp h⟩

/-- What is derived from all tokens before the end is read, if there may be more steps than
tokens. -/
theorem ofTokens_of_derives (hlast : last.kind = .eof)
    (hlimit : (body ++ [last]).length ≤ limit) (h : DerivesTree e (body.map Token.kind)) :
  ofTokens limit (body ++ [last]) = .ok e
  := by
  obtain ⟨d, hd⟩ := h.exists_descends
  have hdeepest : d.deepest < (body.map Token.kind).length := hd.deepest_le
  rw [List.length_map] at hdeepest
  rw [List.length_append] at hlimit
  apply (ofTokens_eq_ok_iff_of_descends hlast hd).mpr
  omega

/-- The tokens of an expression determine its tree. -/
theorem derives_unique {e' : Expr} {ks : List TokenKind}
    (h : DerivesTree e ks) (h' : DerivesTree e' ks) :
  e = e'
  := by
  let token (k : TokenKind) : Token := ⟨k, .point 0, 1, 1, 0⟩
  have hks : (ks.map token).map Token.kind = ks := by
    rw [List.map_map]
    apply List.map_id
  rw [← hks] at h h'
  have hlast : (token .eof).kind = .eof := rfl
  have hread := ofTokens_of_derives hlast (Nat.le_refl _) h
  have hread' := ofTokens_of_derives hlast (Nat.le_refl _) h'
  apply Except.ok.inj (hread.symm.trans hread')

/-- Tokens that end in their only end of input form an expression, under a limit of the depth
above their number, exactly if the grammar derives it from them, and it derives no more than
one. -/
theorem ofTokens_iff_derives (hlast : last.kind = .eof) (hbody : ∀ t ∈ body, t.kind ≠ .eof)
    (hlimit : (body ++ [last]).length < limit) :
  (∀ e, ofTokens limit (body ++ [last]) = .ok e ↔ DerivesTree e (body.map Token.kind))
    ∧ ∀ e e', DerivesTree e (body.map Token.kind) → DerivesTree e' (body.map Token.kind) → e = e'
  := by
  constructor
  · intro e
    constructor
    · intro h
      apply derives_of_ofTokens hlast hbody h
    · intro h
      apply ofTokens_of_derives hlast (Nat.le_of_lt hlimit) h
  · intro e e' h h'
    apply derives_unique h h'

/-- The tokens of `a NOT IN b` form the negation of a test of membership, and no other
tree. -/
theorem ofTokens_iff_derives_notIn :
  let token (k : TokenKind) : Token := ⟨k, .point 0, 1, 1, 0⟩
  let body := [token (.ident "a"), token (.symbol .wordNot), token (.symbol .wordIn),
    token (.ident "b")]
  let e : Expr := .not (.membership .isIn (.var "a") (.var "b"))
  (token .eof).kind = .eof ∧ (∀ t ∈ body, t.kind ≠ .eof)
    ∧ (body ++ [token .eof]).length < defaultDepth ∧ DerivesTree e (body.map Token.kind)
  := by
  intro token body e
  have hlast : (token .eof).kind = .eof := rfl
  have hbody : ∀ t ∈ body, t.kind ≠ .eof := by decide
  have hlimit : (body ++ [token .eof]).length < defaultDepth := by decide
  use hlast, hbody, hlimit
  apply ((ofTokens_iff_derives hlast hbody hlimit).1 e).mp
  rfl

end Expr

end RuleLang
