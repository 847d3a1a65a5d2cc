import RuleLang.Proofs.Grammar.Soundness

/-!
# The token at fault

A fault in the structure of an expression is told at one of its tokens, or at the end of input.
This holds of all that readers are made of, so that it is a logic.
-/

namespace RuleLang

namespace Parser

variable {limit : Nat} {tokens : List Token} {s : ParserState} {α β : Type}

/-- From the state `s` the parser fails at one of the tokens only, or at the end of input behind
them. -/
def Blames (limit : Nat) (tokens : List Token) (s : ParserState) (p : Parser α) : Prop :=
  ∀ e, p limit s = .error e → ∃ t ∈ tokens ++ [.endOf tokens], e = e.cause.located t

theorem Blames.bind {p : Parser α} {f : α → Parser β} (hp : Blames limit tokens s p)
    (hf : ∀ a t, p.Yields limit s a t → Blames limit tokens t (f a)) :
  Blames limit tokens s (p >>= f)
  := by
  intro e h
  obtain he | ⟨⟨a, t⟩, ha, he⟩ := Except.bind_eq_error_iff (x := p limit s) |>.mp h
  · apply hp e he
  · apply hf a t ha e he

theorem blames_deepen (hs : s.Within limit tokens) :
  Blames limit tokens s deepen
  := by
  rw [Blames, deepen_eq]
  split
  · rintro e ⟨⟩
    exact ⟨_, hs.current_mem, rfl⟩
  · rintro e ⟨⟩

/-- Faults at one of the tokens, or at the end of input behind them. -/
def Logic.blame (limit : Nat) (tokens : List Token) : Logic limit tokens Parser where
  Rel s _ q := Blames limit tokens s q
  rel_pure _ := by rintro e ⟨⟩
  rel_bind := Blames.bind
  rel_get {_} := by rintro e ⟨⟩
  rel_set _ := by rintro e ⟨⟩
  rel_modify _ := by rintro e ⟨⟩
  rel_throw h := by
    rintro e ⟨⟩
    exact ⟨_, h, rfl⟩
  rel_deepen := blames_deepen

theorem blames_whole (hs : s.Within limit tokens) :
  Blames limit tokens s whole
  := by
  have hzero (l : Level) (s : ParserState) (hs : s.Within limit tokens) :
      (Logic.blame limit tokens).Rel s (level 0 l) (level 0 l) := by
    rintro e ⟨⟩
    exact ⟨_, hs.current_mem, rfl⟩
  have hlevel := Logic.reads_level hzero limit .expression _ s hs rfl
  exact (hlevel.bind fun e t ht _ => Logic.holds_end ht e).rel

end Parser

/-- A fault in the structure of an expression is told at one of its tokens, or at the end of
input behind them. -/
theorem Expr.exists_located_of_ofTokens {limit : Nat} {tokens : List Token} {e : ParseError}
    (h : Expr.ofTokens limit tokens = .error e) :
  ∃ t ∈ tokens ++ [.endOf tokens], e = e.cause.located t
  := by
  obtain he | ⟨⟨e', s⟩, he', h⟩ := Except.bind_eq_error_iff.mp h
  · apply Parser.blames_whole (ParserState.within_start limit tokens) e he
  · cases h

end RuleLang
