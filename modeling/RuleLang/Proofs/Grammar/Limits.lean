import RuleLang.Proofs.Grammar.Soundness

/-!
# Limits of the depth

`Parser.Agrees d d' s p q` says that from the state `s` the parser `p` under the limit `d` does
what `q` does under the limit `d'`, unless it fails because it is too deep.  For a greater limit
`d'` this is a logic, in which the parser of expressions is related to itself, so that a limit
decides whether tokens are read to the end, and not as what.
-/

namespace RuleLang

namespace Parser

variable {α β : Type} {d d' : Nat} {tokens : List Token} {s : ParserState}

/-- Under `d`, the first parser does what the second one does under `d'`, or fails since it
is too deep. -/
def Agrees (d d' : Nat) (s : ParserState) (p q : Parser α) : Prop :=
  p d s = q d' s ∨ ∃ e, p d s = .error e ∧ e.cause = .tooDeep d

theorem Agrees.bind {p q : Parser α} {f g : α → Parser β} (hp : Agrees d d' s p q)
    (hf : ∀ a t, q.Yields d' s a t → Agrees d d' t (f a) (g a)) :
  Agrees d d' s (p >>= f) (q >>= g)
  := by
  change (p d s >>= fun x => f x.1 d x.2) = (q d' s >>= fun x => g x.1 d' x.2)
    ∨ ∃ e, (p d s >>= fun x => f x.1 d x.2) = .error e ∧ e.cause = .tooDeep d
  obtain h | ⟨e, h, he⟩ := hp
  · rw [h]
    cases hq : q d' s with
    | error e => exact .inl rfl
    | ok x => apply hf x.1 x.2 hq
  · rw [h]
    exact .inr ⟨e, rfl, he⟩

/-- A step deeper fails under the smaller limit first. -/
theorem agrees_deepen (hle : d ≤ d') (s : ParserState) :
  Agrees d d' s deepen deepen
  := by
  rw [Agrees, deepen_eq, deepen_eq]
  by_cases hdepth : d ≤ s.depth
  · rw [if_pos hdepth]
    exact .inr ⟨_, rfl, rfl⟩
  · rw [if_neg hdepth, if_neg (by omega)]
    exact .inl rfl

/-- Agreement under a greater limit. -/
def Logic.agreement (hle : d ≤ d') (tokens : List Token) : Logic d' tokens Parser where
  Rel := Agrees d d'
  rel_pure _ := .inl rfl
  rel_bind := Agrees.bind
  rel_get := .inl rfl
  rel_set _ := .inl rfl
  rel_modify _ := .inl rfl
  rel_throw _ := .inl rfl
  rel_deepen {s} _ := agrees_deepen hle s

/-- Under a greater limit the parser agrees with itself. -/
theorem agrees_whole (hle : d ≤ d') (hs : s.Within d' tokens) :
  Agrees d d' s whole whole
  := by
  obtain ⟨more, rfl⟩ := Nat.exists_eq_add_of_le hle
  have hzero (l : Level) (s : ParserState) (_ : s.Within (d + more) tokens) :
      (Logic.agreement hle tokens).Rel s (level 0 l) (level more l) :=
    .inr ⟨_, rfl, rfl⟩
  have hlevel := Logic.reads_level hzero d .expression _ s hs rfl
  exact (hlevel.bind fun e t ht _ => Logic.holds_end ht e).rel

end Parser

namespace Expr

variable {d d' : Nat}

/-- What tokens form under a limit is what they form under a greater one, unless they are too
deep for the limit. -/
theorem ofTokens_eq_or_tooDeep (hle : d ≤ d') (tokens : List Token) :
  ofTokens d tokens = ofTokens d' tokens
    ∨ ∃ e, ofTokens d tokens = .error e ∧ e.cause = .tooDeep d
  := by
  let s : ParserState := ⟨.ofTokens tokens, 0⟩
  change (Parser.whole d s >>= fun x => pure x.1) = (Parser.whole d' s >>= fun x => pure x.1)
    ∨ ∃ e, (Parser.whole d s >>= fun x => pure x.1) = .error e ∧ e.cause = .tooDeep d
  obtain hsame | ⟨e, herror, he⟩ := Parser.agrees_whole hle (ParserState.within_start d' tokens)
  · rw [hsame]
    exact .inl rfl
  · rw [herror]
    exact .inr ⟨e, rfl, he⟩

/-- Under a limit tokens form the same expression or have the same fault in the same place as
under every greater one, unless they are too deep for the limit.  What is read under a limit is
read under every greater one. -/
theorem ofTokens_of_le (hle : d ≤ d') (tokens : List Token) :
  (ofTokens d tokens = ofTokens d' tokens
    ∨ ∃ e, ofTokens d tokens = .error e ∧ e.cause = .tooDeep d
      ∧ e.cause.message = "expression nesting exceeds the maximum depth of " ++ toString d)
    ∧ ∀ e, ofTokens d tokens = .ok e → ofTokens d' tokens = .ok e
  := by
  obtain hsame | ⟨e, herror, he⟩ := ofTokens_eq_or_tooDeep hle tokens
  · rw [hsame]
    exact ⟨.inl rfl, fun _ h => h⟩
  · constructor
    · exact .inr ⟨e, herror, he, he ▸ rfl⟩
    · intro t ht
      rw [herror] at ht
      cases ht

/-- A sign before a sign and its operand need a depth of three. -/
theorem ofTokens_of_le_signs :
  let tokens : List Token := [⟨.symbol .minus, ⟨0, 1⟩, 1, 1, 1⟩, ⟨.symbol .minus, ⟨1, 2⟩, 1, 2, 1⟩,
    ⟨.ident "a", ⟨2, 3⟩, 1, 3, 1⟩, ⟨.eof, ⟨3, 3⟩, 1, 4, 0⟩]
  let t : Expr := .unary .minus (.unary .minus (.var "a"))
  (2 ≤ defaultDepth ∧ ∃ e, ofTokens 2 tokens = .error e ∧ e.cause = .tooDeep 2)
    ∧ 3 ≤ defaultDepth ∧ ofTokens 3 tokens = .ok t ∧ ofTokens defaultDepth tokens = .ok t
  := by
  intro tokens t
  have htwo : 2 ≤ defaultDepth := by decide
  have hthree : 3 ≤ defaultDepth := by decide
  have hread : ofTokens 3 tokens = .ok t := rfl
  have hdefault := (ofTokens_of_le hthree tokens).2 t hread
  refine ⟨⟨htwo, ?_⟩, hthree, hread, hdefault⟩
  obtain hsame | ⟨e, herror, he, -⟩ := (ofTokens_of_le htwo tokens).1
  · rw [hdefault] at hsame
    cases hsame
  · exact ⟨e, herror, he⟩

end Expr

end RuleLang
