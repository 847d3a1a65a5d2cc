import RuleLang.Proofs.Expr.Printing
import RuleLang.Proofs.Grammar.Limits
import RuleLang.Proofs.Grammar.Recognition

/-!
# Formatted expressions read back

The text that a format writes for a tree that was read from some text is divided into
tokens, and these form the tree again, under every limit of the depth that is not reached.
-/

namespace RuleLang

/-- The tokens of a text end in the only end of input, and the text spells the others. -/
theorem exists_spells_of_tokenize {source : List Char} {tokens : List Token}
    (h : tokenize source = .ok tokens) :
  ∃ body last, tokens = body ++ [last] ∧ last.kind = .eof ∧ Spells source (body.map Token.kind)
  := by
  obtain ⟨⟨ls, stop⟩, hls, hrest⟩ := Except.bind_eq_ok_iff.mp h
  obtain ⟨body, hbody, htokens⟩ := Except.bind_eq_ok_iff.mp hrest
  obtain rfl := Except.ok.inj htokens
  refine ⟨body, .atEnd stop, rfl, rfl, ?_⟩
  apply spells_iff.mpr
  use body ++ [.atEnd stop], h
  rw [List.map_append]
  rfl

/-- No token that stands in a text is the end of input. -/
theorem ne_eof_of_spells {source : List Char} {body : List Token}
    (h : Spells source (body.map Token.kind)) :
  ∀ t ∈ body, t.kind ≠ .eof
  := by
  intro t ht heof
  have hwritten := written_of_spells h t.kind (List.mem_map_of_mem ht)
  rw [heof] at hwritten
  apply hwritten

namespace Expr

/-- The trees that are read from texts can be written. -/
theorem written_of_ofTokens {source : List Char} {tokens : List Token} {limit : Nat} {t : Expr}
    (htokens : tokenize source = .ok tokens) (ht : ofTokens limit tokens = .ok t) :
  t.Written
  := by
  obtain ⟨body, last, rfl, hlast, hspells⟩ := exists_spells_of_tokenize htokens
  have hderives := derives_of_ofTokens hlast (ne_eof_of_spells hspells) ht
  apply written_of_derives hderives (written_of_spells hspells)

/-- What is read under great limits of the depth is read under every other limit that is not
reached. -/
theorem ofTokens_of_great {tokens : List Token} {n : Nat} {t : Expr}
    (h : ∀ limit, n ≤ limit → ofTokens limit tokens = .ok t) (limit : Nat) :
  ofTokens limit tokens = .ok t
    ∨ ∃ e, ofTokens limit tokens = .error e ∧ e.cause = .tooDeep limit
  := by
  rw [← h (max limit n) (Nat.le_max_right _ _)]
  apply ofTokens_eq_or_tooDeep (Nat.le_max_left _ _)

/-- The text that a format with parentheses writes for a tree that was read from a text is
divided into tokens that form the tree, unless a limit of the depth is reached. -/
theorem ofTokens_format {source : List Char} {tokens : List Token} {limit : Nat} {t : Expr}
    {f : Format} (htokens : tokenize source = .ok tokens) (ht : ofTokens limit tokens = .ok t)
    (hf : f.parens ≠ .none) :
  ∃ tokens', tokenize (t.format f) = .ok tokens'
    ∧ (∀ limit', tokens'.length ≤ limit' → ofTokens limit' tokens' = .ok t)
    ∧ ∀ limit', ofTokens limit' tokens' = .ok t
      ∨ ∃ e, ofTokens limit' tokens' = .error e ∧ e.cause = .tooDeep limit'
  := by
  obtain ⟨-, ks, hks, hprints⟩ := ((written_of_ofTokens htokens ht).shows hf).loosen
  have hspells := hprints [] [] closes_nil .nil
  rw [List.append_nil, List.append_nil] at hspells
  obtain ⟨tokens', htokens', hkinds⟩ := spells_iff.mp hspells
  obtain ⟨body, last, rfl, hlast, -⟩ := exists_spells_of_tokenize htokens'
  have hbody : body.map Token.kind = ks := by
    rw [List.map_append] at hkinds
    exact (List.append_inj' hkinds rfl).1
  have hread : ∀ limit', (body ++ [last]).length ≤ limit' →
      ofTokens limit' (body ++ [last]) = .ok t := by
    intro limit' hlimit
    apply ofTokens_of_derives hlast hlimit (hbody.symm ▸ hks)
  use body ++ [last], htokens', hread
  apply ofTokens_of_great hread

/-- Without a blank, the sign of an operand stands right behind the sign of a difference. -/
theorem ofTokens_format_subtraction :
  let tokens : List Token := [⟨.ident "a", ⟨0, 1⟩, 1, 1, 1⟩, ⟨.symbol .minus, ⟨2, 3⟩, 1, 3, 1⟩,
    ⟨.symbol .minus, ⟨4, 5⟩, 1, 5, 1⟩, ⟨.ident "b", ⟨5, 6⟩, 1, 6, 1⟩, ⟨.eof, ⟨6, 6⟩, 1, 7, 0⟩]
  let t : Expr := .arithmetic .subtract (.var "a") (.unary .minus (.var "b"))
  let f : Format := ⟨.minimal, .compact⟩
  tokenize "a - -b".toList = .ok tokens ∧ ofTokens defaultDepth tokens = .ok t
    ∧ f.parens ≠ .none ∧ t.format f = "a--b".toList
    ∧ ∃ tokens', tokenize (t.format f) = .ok tokens'
      ∧ ∀ limit', tokens'.length ≤ limit' → ofTokens limit' tokens' = .ok t
  := by
  intro tokens t f
  have htokens : tokenize "a - -b".toList = .ok tokens := by rfl
  have ht : ofTokens defaultDepth tokens = .ok t := by rfl
  have hf : f.parens ≠ .none := by decide
  obtain ⟨tokens', htokens', hread, -⟩ := ofTokens_format htokens ht hf
  use htokens, ht, hf, by decide, tokens', htokens', hread

end Expr

end RuleLang
