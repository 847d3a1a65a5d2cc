import RuleLang.Expr.Parser
import RuleLang.Proofs.Outcome

/-!
# Runs of parsers

`Parser.Yields p limit s a t` says that the parser `p`, under a limit of the depth and from
the state `s`, reads `a` and ends in the state `t`.  What a combinator of parsers yields is
told by what its parts yield.
-/

namespace RuleLang

namespace Cursor

/-- From the first place to the second one goes over tokens of the kinds `ks`. -/
def Consumes (c : Cursor) (ks : List TokenKind) (d : Cursor) : Prop :=
  d.last = c.last ∧ ∃ tokens, tokens.map Token.kind = ks ∧ c.rest = tokens ++ d.rest

theorem Consumes.refl
    (c : Cursor) :
  c.Consumes [] c
  := ⟨rfl, [], rfl, rfl⟩

theorem Consumes.trans {c d e : Cursor} {ks ls : List TokenKind}
    (h : c.Consumes ks d) (h' : d.Consumes ls e) :
  c.Consumes (ks ++ ls) e
  := by
  obtain ⟨hlast, tokens, rfl, hrest⟩ := h
  obtain ⟨hlast', tokens', rfl, hrest'⟩ := h'
  constructor
  · apply hlast'.trans hlast
  · use tokens ++ tokens', List.map_append
    rw [hrest, hrest', List.append_assoc]

/-- Behind a current token that is not the end one goes on over that token. -/
theorem consumes_advance {c : Cursor} (hlast : c.last.kind = .eof) (h : c.current.kind ≠ .eof) :
  c.Consumes [c.current.kind] c.advance
  := by
  obtain ⟨rest, last⟩ := c
  cases rest with
  | nil => contradiction
  | cons token rest =>
    constructor
    · rfl
    · use [token], rfl
      rfl

end Cursor

namespace ParserState

/-- The kind of the current token. -/
def kind (s : ParserState) : TokenKind := s.cursor.current.kind

/-- The state behind the current token. -/
def advance (s : ParserState) : ParserState := { s with cursor := s.cursor.advance }

/-- The state one step deeper. -/
def deepen (s : ParserState) : ParserState := { s with depth := s.depth + 1 }

end ParserState

namespace Parser

variable {α β : Type}

/-- Under the limit, `p` reads `a` from the state `s` and ends in the state `t`. -/
def Yields (p : Parser α) (limit : Nat) (s : ParserState) (a : α) (t : ParserState) : Prop :=
  p limit s = .ok (a, t)

variable {limit : Nat} {s t : ParserState} {p q : Parser α} {a : α} {b : β}

/-- A parser reads one thing only. -/
theorem Yields.unique {a' : α} {t' : ParserState}
    (h : p.Yields limit s a t) (h' : p.Yields limit s a' t') :
  a = a' ∧ t = t'
  := by
  obtain ⟨rfl, rfl⟩ := Prod.mk.inj (Except.ok.inj (h.symm.trans h'))
  constructor
  · rfl
  · rfl

/-- A parser that is known to read something reads nothing else. -/
theorem yields_iff_of_eq {a' : α} {u : ParserState} (h : p limit s = .ok (a', u)) :
  p.Yields limit s a t ↔ a = a' ∧ t = u
  := by
  constructor
  · intro h'
    apply Yields.unique h' h
  · rintro ⟨rfl, rfl⟩
    apply h

theorem yields_pure {a' : α} :
  Yields (pure a') limit s a t ↔ a = a' ∧ t = s
  := yields_iff_of_eq rfl

/-- One parser behind another goes on with what that read. -/
theorem yields_bind {f : α → Parser β} :
  Yields (p >>= f) limit s b t ↔ ∃ a u, p.Yields limit s a u ∧ (f a).Yields limit u b t
  := by
  apply Iff.trans (Except.bind_eq_ok_iff (x := p limit s))
  constructor
  · rintro ⟨⟨a, u⟩, hp, hf⟩
    use a, u, hp, hf
  · rintro ⟨a, u, hp, hf⟩
    use (a, u), hp, hf

theorem yields_bind_of_eq {f : α → Parser β} {u : ParserState} (h : p limit s = .ok (a, u)) :
  Yields (p >>= f) limit s b t ↔ (f a).Yields limit u b t
  := by
  rw [yields_bind]
  constructor
  · rintro ⟨a', u', hp, hf⟩
    obtain ⟨rfl, rfl⟩ := (yields_iff_of_eq h).mp hp
    apply hf
  · intro hf
    use a, u, h

theorem yields_bind_get {f : ParserState → Parser β} :
  Yields (get >>= f) limit s b t ↔ (f s).Yields limit s b t
  := yields_bind_of_eq rfl

theorem yields_bind_set {u : ParserState} {f : PUnit → Parser β} :
  Yields (set u >>= f) limit s b t ↔ (f ()).Yields limit u b t
  := yields_bind_of_eq rfl

theorem yields_bind_modify {g : ParserState → ParserState} {f : PUnit → Parser β} :
  Yields (modify g >>= f) limit s b t ↔ (f ()).Yields limit (g s) b t
  := yields_bind_of_eq rfl

theorem yields_bind_read {f : Nat → Parser β} :
  Yields (read >>= f) limit s b t ↔ (f limit).Yields limit s b t
  := yields_bind_of_eq rfl

theorem yields_bind_current {f : Token → Parser β} :
  Yields (current >>= f) limit s b t ↔ (f s.cursor.current).Yields limit s b t
  := yields_bind_of_eq rfl

theorem yields_bind_advance {f : Unit → Parser β} :
  Yields (advance >>= f) limit s b t ↔ (f ()).Yields limit s.advance b t
  := yields_bind_of_eq rfl

theorem yields_throw {e : ParseError} :
  Yields (throw e) limit s a t ↔ False
  := by
  constructor
  · rintro ⟨⟩
  · rintro ⟨⟩

theorem yields_fail {fault : TokenKind → ParseFault} :
  Yields (fail fault) limit s a t ↔ False
  := by
  rw [fail, yields_bind_current, yields_throw]

theorem yields_ite {c : Prop} [Decidable c] :
  Yields (if c then p else q) limit s a t
    ↔ (c ∧ p.Yields limit s a t) ∨ (¬c ∧ q.Yields limit s a t)
  := by
  by_cases h : c
  · simp [h]
  · simp [h]

/-- A step deeper is taken below the limit only, and fails at the current token otherwise. -/
theorem deepen_eq
    (limit : Nat) (s : ParserState) :
  (deepen : Parser Unit) limit s
    = if limit ≤ s.depth then .error ((ParseFault.tooDeep limit).located s.cursor.current)
      else .ok ((), s.deepen)
  := by
  change (if limit ≤ s.depth then fail fun _ => .tooDeep limit
    else modify fun s => { s with depth := s.depth + 1 } : Parser Unit) limit s = _
  split
  · rfl
  · rfl

theorem yields_bind_deepen {f : Unit → Parser β} :
  Yields (deepen >>= f) limit s b t ↔ s.depth < limit ∧ (f ()).Yields limit s.deepen b t
  := by
  have hdeepen := deepen_eq limit s
  by_cases h : limit ≤ s.depth
  · rw [if_pos h] at hdeepen
    constructor
    · intro hread
      obtain ⟨a, u, ha, -⟩ := yields_bind.mp hread
      cases hdeepen.symm.trans ha
    · rintro ⟨hlt, -⟩
      omega
  · rw [if_neg h] at hdeepen
    rw [yields_bind_of_eq hdeepen]
    exact (and_iff_right (Nat.lt_of_not_le h)).symm

/-- A symbol is eaten exactly when it is the current token. -/
theorem yields_bind_eat {symbol : Symbol} {f : Bool → Parser β} :
  Yields (eat symbol >>= f) limit s b t
    ↔ (s.kind = .symbol symbol ∧ (f true).Yields limit s.advance b t)
      ∨ (s.kind ≠ .symbol symbol ∧ (f false).Yields limit s b t)
  := by
  rw [eat, bind_assoc, yields_bind_current]
  by_cases h : s.cursor.current.kind = .symbol symbol
  · rw [if_pos h, bind_assoc, yields_bind_advance, pure_bind]
    simp [ParserState.kind, h]
  · rw [if_neg h, pure_bind]
    simp [ParserState.kind, h]

theorem yields_nested {body : Parser Expr} {e : Expr} :
  Yields (nested body) limit s e t
    ↔ s.depth < limit ∧ ∃ u, body.Yields limit s.deepen e u
      ∧ t = { u with depth := u.depth - 1 }
  := by
  rw [nested, yields_bind_deepen]
  constructor
  · rintro ⟨h, hnested⟩
    obtain ⟨e', u, hbody, hrest⟩ := yields_bind.mp hnested
    rw [yields_bind_modify] at hrest
    obtain ⟨rfl, rfl⟩ := yields_pure.mp hrest
    use h, u, hbody
  · rintro ⟨h, u, hbody, rfl⟩
    use h
    apply yields_bind.mpr
    use e, u, hbody
    apply yields_bind_modify.mpr
    apply yields_pure.mpr
    constructor
    · rfl
    · rfl

theorem yields_chain {first : Parser Expr} {step : Expr → Parser (Option Expr)} {e : Expr} :
  Yields (chain first step) limit s e t
    ↔ ∃ left u v, first.Yields limit s left u
      ∧ (steps step u.cursor.rest left).Yields limit u e v
      ∧ t = { v with depth := u.depth }
  := by
  rw [chain]
  constructor
  · intro h
    obtain ⟨left, u, hleft, h⟩ := yields_bind.mp h
    obtain ⟨e', v, hsteps, h⟩ := yields_bind.mp (yields_bind_get.mp h)
    rw [yields_bind_modify] at h
    obtain ⟨rfl, rfl⟩ := yields_pure.mp h
    use left, u, v, hleft, hsteps
  · rintro ⟨left, u, v, hleft, hsteps, rfl⟩
    apply yields_bind.mpr
    use left, u, hleft
    apply yields_bind_get.mpr
    apply yields_bind.mpr
    use e, v, hsteps
    apply yields_bind_modify.mpr
    apply yields_pure.mpr
    constructor
    · rfl
    · rfl

end Parser

end RuleLang
