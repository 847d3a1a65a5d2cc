import RuleLang.Proofs.Grammar.Reading

/-!
# Depths that parsers need

`Parser.Needs p limit s need a t` says that the parser `p`, under a limit of the depth and from
the state `s`, reads `a` and ends in the state `t` if the limit allows the depth `need`, and
reads nothing if it does not.  What a combinator needs is told by what its parts need.
-/

namespace RuleLang.Parser

variable {α β : Type}

/-- From the state `s` the parser reads `a`, and ends in `t`, under the limits from `need` on,
and nothing under the others. -/
def Needs (p : Parser α) (limit : Nat) (s : ParserState) (need : Nat) (a : α)
    (t : ParserState) : Prop :=
  ∀ a' t', p.Yields limit s a' t' ↔ need ≤ limit ∧ a' = a ∧ t' = t

variable {limit k l : Nat} {s t u : ParserState} {p : Parser α} {a : α} {b : β}

theorem Needs.yields (h : Needs p limit s k a t) (hneed : k ≤ limit) :
  p.Yields limit s a t
  := (h a t).mpr ⟨hneed, rfl, rfl⟩

theorem Needs.of_yields (h : p.Yields limit s a t) (hneed : k ≤ limit) :
  Needs p limit s k a t
  := by
  intro a' t'
  rw [yields_iff_of_eq h]
  exact (and_iff_right hneed).symm

/-- Only on which side of the limit the depth lies that is needed makes a difference. -/
theorem Needs.congr (h : Needs p limit s k a t) (hneed : k ≤ limit ↔ l ≤ limit) :
  Needs p limit s l a t
  := by
  intro a' t'
  rw [← hneed]
  apply h

/-- One parser behind another needs what that needs, and what it needs itself. -/
theorem Needs.bind {f : α → Parser β} (hp : Needs p limit s k a u)
    (hf : k ≤ limit → Needs (f a) limit u l b t) :
  Needs (p >>= f) limit s (max k l) b t
  := by
  intro b' t'
  rw [yields_bind, Nat.max_le, and_assoc]
  constructor
  · rintro ⟨a', u', ha, hb⟩
    obtain ⟨hneed, rfl, rfl⟩ := (hp a' u').mp ha
    exact ⟨hneed, (hf hneed b' t').mp hb⟩
  · rintro ⟨hneed, hb⟩
    exact ⟨a, u, hp.yields hneed, (hf hneed b' t').mpr hb⟩

/-- What is made of what was read needs nothing more. -/
theorem Needs.map {g : α → β} (hp : Needs p limit s k a t) :
  Needs (p >>= fun a => pure (g a)) limit s k (g a) t
  := by
  have h := hp.bind (f := fun a => pure (g a)) fun hneed =>
    Needs.of_yields (yields_pure.mpr ⟨rfl, rfl⟩) hneed
  rwa [Nat.max_self] at h

/-- A parser that is known to read something needs what the parser behind it needs. -/
theorem needs_bind_of_eq {f : α → Parser β} (h : p limit s = .ok (a, u))
    (hf : Needs (f a) limit u k b t) :
  Needs (p >>= f) limit s k b t
  := by
  intro b' t'
  rw [yields_bind_of_eq h]
  apply hf

theorem needs_ite_of_pos {q : Parser α} {c : Prop} [Decidable c] (h : c)
    (hp : Needs p limit s k a t) :
  Needs (if c then p else q) limit s k a t
  := by
  rwa [if_pos h]

theorem needs_ite_of_neg {q : Parser α} {c : Prop} [Decidable c] (h : ¬c)
    (hq : Needs q limit s k a t) :
  Needs (if c then p else q) limit s k a t
  := by
  rwa [if_neg h]

section

variable {symbol : Symbol} {f : Bool → Parser β} {token last : Token} {rest : List Token}
  {depth : Nat}

/-- A symbol that is the current token is eaten. -/
theorem needs_bind_eat (h : token.kind = .symbol symbol)
    (hf : Needs (f true) limit ⟨⟨rest, last⟩, depth⟩ k b t) :
  Needs (eat symbol >>= f) limit ⟨⟨token :: rest, last⟩, depth⟩ k b t
  := by
  have hkind : ParserState.kind ⟨⟨token :: rest, last⟩, depth⟩ = .symbol symbol := h
  intro b' t'
  rw [yields_bind_eat]
  simp only [hkind, ne_eq, not_true_eq_false, true_and, false_and, or_false]
  apply hf

/-- A symbol that is not the current token is not eaten. -/
theorem needs_bind_eat_of_ne (h : token.kind ≠ .symbol symbol)
    (hf : Needs (f false) limit ⟨⟨token :: rest, last⟩, depth⟩ k b t) :
  Needs (eat symbol >>= f) limit ⟨⟨token :: rest, last⟩, depth⟩ k b t
  := by
  have hkind : ParserState.kind ⟨⟨token :: rest, last⟩, depth⟩ ≠ .symbol symbol := h
  intro b' t'
  rw [yields_bind_eat]
  simp only [hkind, ne_eq, not_false_eq_true, true_and, false_and, false_or]
  apply hf

end

/-- What is read one step deeper needs more than the depth before the step. -/
theorem needs_bind_deepen {f : Unit → Parser β} (hneed : s.depth < k)
    (hf : s.depth < limit → Needs (f ()) limit s.deepen k b t) :
  Needs (deepen >>= f) limit s k b t
  := by
  intro b' t'
  rw [yields_bind_deepen]
  constructor
  · rintro ⟨hdepth, hb⟩
    exact (hf hdepth b' t').mp hb
  · rintro ⟨hle, hb⟩
    have hdepth : s.depth < limit := Nat.lt_of_lt_of_le hneed hle
    exact ⟨hdepth, (hf hdepth b' t').mpr ⟨hle, hb⟩⟩

theorem needs_nested {body : Parser Expr} {e : Expr} (hneed : s.depth < k)
    (hbody : s.depth < limit → Needs body limit s.deepen k e u) :
  Needs (nested body) limit s k e { u with depth := u.depth - 1 }
  := by
  apply needs_bind_deepen hneed
  intro hdepth
  have h := (hbody hdepth).bind (f := fun e => do
    modify fun s : ParserState => { s with depth := s.depth - 1 }
    return e) fun hle => needs_bind_of_eq rfl (Needs.of_yields (yields_pure.mpr ⟨rfl, rfl⟩) hle)
  rwa [Nat.max_self] at h

theorem needs_chain {first : Parser Expr} {step : Expr → Parser (Option Expr)} {left e : Expr}
    {v : ParserState} (hfirst : Needs first limit s k left u)
    (hsteps : k ≤ limit → Needs (steps step u.cursor.rest left) limit u l e v) :
  Needs (chain first step) limit s (max k l) e { v with depth := u.depth }
  := by
  intro e' t'
  rw [yields_chain, Nat.max_le, and_assoc]
  constructor
  · rintro ⟨left', u', v', hleft, he, rfl⟩
    obtain ⟨hneed, rfl, rfl⟩ := (hfirst left' u').mp hleft
    obtain ⟨hl, rfl, rfl⟩ := (hsteps hneed e' v').mp he
    exact ⟨hneed, hl, rfl, rfl⟩
  · rintro ⟨hneed, hl, rfl, rfl⟩
    exact ⟨left, u, v, hfirst.yields hneed, (hsteps hneed).yields hl, rfl⟩

end RuleLang.Parser
