import Mathlib.Order.Defs.Unbundled
import RuleLang.Proofs.Grammar.Reading

/-!
# Logics of readers

What is known of all runs of the readers of expressions is a `Parser.Logic`: a relation between
readers in a monad and parsers that has a rule for each thing that readers are made of.  In every
logic a reader goes over tokens to which what it reads stands in a relation (`Logic.Reads`), so
that the readers have to be walked through only once, and a further fact on their runs takes no
more than the rules.
-/

namespace RuleLang

/-- The parser stands within the tokens or at their end, and not above the limit of the depth. -/
structure ParserState.Within (limit : Nat) (tokens : List Token) (s : ParserState) : Prop where
  depth_le : s.depth ≤ limit
  rest_suffix : s.cursor.rest <:+ tokens
  last_eq : s.cursor.last = .endOf tokens

namespace ParserState

variable {limit : Nat} {tokens : List Token} {s : ParserState}

/-- The parser begins at the beginning of the tokens. -/
theorem within_start
    (limit : Nat) (tokens : List Token) :
  Within limit tokens ⟨.ofTokens tokens, 0⟩
  := ⟨Nat.zero_le limit, List.suffix_rfl, rfl⟩

theorem Within.advance (h : s.Within limit tokens) :
  s.advance.Within limit tokens
  := ⟨h.depth_le, (List.tail_suffix _).trans h.rest_suffix, h.last_eq⟩

theorem Within.deepen (h : s.Within limit tokens) (hlt : s.depth < limit) :
  s.deepen.Within limit tokens
  := ⟨hlt, h.rest_suffix, h.last_eq⟩

/-- A depth that one has been at before is within the limit. -/
theorem Within.withDepth (h : s.Within limit tokens) {d : Nat} (hd : d ≤ limit) :
  Within limit tokens { s with depth := d }
  := ⟨hd, h.rest_suffix, h.last_eq⟩

theorem Within.last_kind (h : s.Within limit tokens) :
  s.cursor.last.kind = .eof
  := by
  rw [h.last_eq, Token.endOf]
  split
  · rfl
  · rfl

/-- Behind a current token that is not the end one has gone over that token. -/
theorem Within.consumes_advance (h : s.Within limit tokens) (hk : s.kind ≠ .eof) :
  s.cursor.Consumes [s.kind] s.advance.cursor
  := Cursor.consumes_advance h.last_kind hk

/-- The current token is one of the tokens, or the end of input behind them. -/
theorem Within.current_mem (h : s.Within limit tokens) :
  s.cursor.current ∈ tokens ++ [.endOf tokens]
  := by
  obtain ⟨⟨rest, last⟩, depth⟩ := s
  cases rest with
  | nil =>
    apply List.mem_append_right
    apply List.mem_singleton.mpr h.last_eq
  | cons token rest =>
    apply List.mem_append_left
    apply h.rest_suffix.subset List.mem_cons_self

end ParserState

namespace Parser

/-- A relation between readers in a monad and parsers, from one state on, that is closed under
what readers do. -/
structure Logic (limit : Nat) (tokens : List Token) (m : Type → Type) [Monad m]
    [MonadReaderOf Nat m] [MonadStateOf ParserState m] [MonadExceptOf ParseError m] where
  /-- From a state the reader is related to the parser. -/
  Rel : {α : Type} → ParserState → m α → Parser α → Prop
  rel_pure : ∀ {α : Type} {s : ParserState} (a : α), Rel s (pure a) (pure a)
  /-- What comes next is related where the parser ends. -/
  rel_bind : ∀ {α β : Type} {s : ParserState} {p : m α} {q : Parser α} {f : α → m β}
    {g : α → Parser β}, Rel s p q → (∀ a t, q.Yields limit s a t → Rel t (f a) (g a)) →
      Rel s (p >>= f) (q >>= g)
  rel_get : ∀ {s : ParserState}, Rel s get get
  rel_set : ∀ {s u : ParserState}, u.Within limit tokens → Rel s (set u) (set u)
  rel_modify : ∀ {s : ParserState} {f : ParserState → ParserState}, (f s).Within limit tokens →
    Rel s (modify f) (modify f)
  /-- The token at fault is one of the tokens, or the end of input behind them. -/
  rel_throw : ∀ {α : Type} {s : ParserState} {fault : ParseFault} {token : Token},
    token ∈ tokens ++ [.endOf tokens] →
      Rel s (throw (fault.located token) : m α) (throw (fault.located token))
  rel_deepen : ∀ {s : ParserState}, s.Within limit tokens → Rel s deepen deepen

variable {limit : Nat} {tokens : List Token} {m : Type → Type} [Monad m] [MonadReaderOf Nat m]
  [MonadStateOf ParserState m] [MonadExceptOf ParseError m] {L : Logic limit tokens m}
  {α β : Type} {s : ParserState}

/-! ### Runs from one state -/

/-- From the state `s` the reader is related to the parser, which ends within the limit and the
tokens, and what is read and the state at the end satisfy `post`. -/
structure Logic.Holds (L : Logic limit tokens m) (s : ParserState) (p : m α) (q : Parser α)
    (post : α → ParserState → Prop) : Prop where
  rel : L.Rel s p q
  ends : ∀ {a t}, q.Yields limit s a t → t.Within limit tokens ∧ post a t

section

variable {p p' : m α} {q q' : Parser α} {post : α → ParserState → Prop}

theorem Logic.Holds.mono {post' : α → ParserState → Prop} (h : L.Holds s p q post)
    (hpost : ∀ a t, post a t → post' a t) :
  L.Holds s p q post'
  where
  rel := h.rel
  ends hread := (h.ends hread).imp_right (hpost _ _)

theorem Logic.Holds.bind {f : α → m β} {g : α → Parser β} {post' : β → ParserState → Prop}
    (hp : L.Holds s p q post)
    (hf : ∀ a t, t.Within limit tokens → post a t → L.Holds t (f a) (g a) post') :
  L.Holds s (p >>= f) (q >>= g) post'
  := by
  have hnext {a : α} {t : ParserState} (ha : q.Yields limit s a t) :
      L.Holds t (f a) (g a) post' := by
    obtain ⟨ht, hpost⟩ := hp.ends ha
    apply hf a t ht hpost
  constructor
  · apply L.rel_bind hp.rel
    intro a t ha
    apply (hnext ha).rel
  · intro b u hb
    obtain ⟨a, t, ha, hb⟩ := yields_bind.mp hb
    apply (hnext ha).ends hb

theorem Logic.Holds.ite {c : Prop} [Decidable c] (hp : c → L.Holds s p q post)
    (hp' : ¬c → L.Holds s p' q' post) :
  L.Holds s (if c then p else p') (if c then q else q') post
  := by
  split
  · apply hp
    assumption
  · apply hp'
    assumption

theorem Logic.holds_pure {a : α} (hs : s.Within limit tokens) (h : post a s) :
  L.Holds s (pure a) (pure a) post
  := by
  constructor
  · apply L.rel_pure
  · intro b t hb
    obtain ⟨rfl, rfl⟩ := yields_pure.mp hb
    exact ⟨hs, h⟩

theorem Logic.holds_get (hs : s.Within limit tokens) :
  L.Holds s get get fun u t => u = s ∧ t = s
  := by
  constructor
  · apply L.rel_get
  · intro u t hu
    obtain ⟨rfl, rfl⟩ := (yields_iff_of_eq rfl).mp hu
    exact ⟨hs, rfl, rfl⟩

theorem Logic.holds_set {u : ParserState} (hu : u.Within limit tokens) :
  L.Holds s (set u) (set u) fun _ t => t = u
  := by
  constructor
  · apply L.rel_set hu
  · intro a t ha
    obtain ⟨-, rfl⟩ := (yields_iff_of_eq rfl).mp ha
    exact ⟨hu, rfl⟩

theorem Logic.holds_modify {f : ParserState → ParserState} (hu : (f s).Within limit tokens) :
  L.Holds s (modify f) (modify f) fun _ t => t = f s
  := by
  constructor
  · apply L.rel_modify hu
  · intro a t ha
    obtain ⟨-, rfl⟩ := (yields_iff_of_eq rfl).mp ha
    exact ⟨hu, rfl⟩

theorem Logic.holds_throw {fault : ParseFault} {token : Token}
    (h : token ∈ tokens ++ [.endOf tokens]) :
  L.Holds s (throw (fault.located token) : m α) (throw (fault.located token)) post
  := by
  constructor
  · apply L.rel_throw h
  · intro a t ha
    cases yields_throw.mp ha

theorem Logic.holds_deepen (hs : s.Within limit tokens) :
  L.Holds s deepen deepen fun _ t => t = s.deepen
  := by
  constructor
  · apply L.rel_deepen hs
  · intro a t ha
    rw [← bind_pure deepen] at ha
    obtain ⟨hlt, hend⟩ := yields_bind_deepen.mp ha
    obtain ⟨-, rfl⟩ := yields_pure.mp hend
    exact ⟨hs.deepen hlt, rfl⟩

theorem Logic.holds_current (hs : s.Within limit tokens) :
  L.Holds s current current fun token t => token = s.cursor.current ∧ t = s
  := by
  apply (Logic.holds_get hs).bind
  rintro _ _ - ⟨rfl, rfl⟩
  exact Logic.holds_pure hs ⟨rfl, rfl⟩

theorem Logic.holds_advance (hs : s.Within limit tokens) :
  L.Holds s advance advance fun _ t => t = s.advance
  := Logic.holds_modify hs.advance

theorem Logic.holds_fail {fault : TokenKind → ParseFault} (hs : s.Within limit tokens) :
  L.Holds s (fail fault : m α) (fail fault) post
  := by
  apply (Logic.holds_current hs).bind
  rintro token _ - ⟨rfl, rfl⟩
  apply Logic.holds_throw hs.current_mem

end

/-! ### Contracts -/

/-- Where the current token is of kind `k`, what is read stands in the relation `R` to the tokens
gone over, and the depths at the beginning and at the end stand in the relation `δ`. -/
def Logic.ReadsFrom (L : Logic limit tokens m) (δ : Nat → Nat → Prop) (k : TokenKind) (p : m α)
    (q : Parser α) (R : α → List TokenKind → Prop) : Prop :=
  ∀ s, s.Within limit tokens → s.kind = k → L.Holds s p q fun a t =>
    δ s.depth t.depth ∧ ∃ ks, s.cursor.Consumes ks t.cursor ∧ R a ks

/-- What is read stands in the relation `R` to the tokens gone over, and the depths at the
beginning and at the end stand in the relation `δ`. -/
def Logic.Reads (L : Logic limit tokens m) (δ : Nat → Nat → Prop) (p : m α) (q : Parser α)
    (R : α → List TokenKind → Prop) : Prop :=
  ∀ k, L.ReadsFrom δ k p q R

section

variable {δ : Nat → Nat → Prop} {k : TokenKind} {p p' : m α} {q q' : Parser α}
  {R R' : α → List TokenKind → Prop}

theorem Logic.ReadsFrom.mono
    (h : L.ReadsFrom δ k p q R) (hR : ∀ a ks, R a ks → R' a ks) :
  L.ReadsFrom δ k p q R'
  := by
  intro s hs hk
  apply (h s hs hk).mono
  rintro a t ⟨hdepth, ks, hks, ha⟩
  exact ⟨hdepth, ks, hks, hR a ks ha⟩

theorem Logic.Reads.mono
    (h : L.Reads δ p q R) (hR : ∀ a ks, R a ks → R' a ks) :
  L.Reads δ p q R'
  := fun k => (h k).mono hR

/-- What a parser reads does not depend on the logic. -/
theorem Logic.Reads.of_rel {m' : Type → Type} [Monad m'] [MonadReaderOf Nat m']
    [MonadStateOf ParserState m'] [MonadExceptOf ParseError m'] {L' : Logic limit tokens m'}
    {r : m' α}
    (h : L'.Reads δ r q R) (hrel : ∀ s, s.Within limit tokens → L.Rel s p q) :
  L.Reads δ p q R
  := fun k s hs hk => ⟨hrel s hs, (h k s hs hk).ends⟩

/-- What ends at the depth at which it begins ends no higher. -/
theorem Logic.Reads.le
    (h : L.Reads Eq p q R) :
  L.Reads LE.le p q R
  := by
  intro k s hs hk
  apply (h k s hs hk).mono
  rintro a t ⟨hdepth, hread⟩
  exact ⟨Nat.le_of_eq hdepth, hread⟩

theorem Logic.readsFrom_pure [Std.Refl δ] {a : α}
    (h : R a []) :
  L.ReadsFrom δ k (pure a) (pure a) R
  := by
  intro s hs _
  exact Logic.holds_pure hs ⟨Std.Refl.refl _, [], .refl _, h⟩

theorem Logic.reads_pure [Std.Refl δ] {a : α}
    (h : R a []) :
  L.Reads δ (pure a) (pure a) R
  := fun _ => Logic.readsFrom_pure h

theorem Logic.readsFrom_fail {fault : TokenKind → ParseFault} :
  L.ReadsFrom δ k (fail fault : m α) (fail fault) R
  := fun _ hs _ => Logic.holds_fail hs

theorem Logic.reads_fail {fault : TokenKind → ParseFault} :
  L.Reads δ (fail fault : m α) (fail fault) R
  := fun _ => Logic.readsFrom_fail

theorem Logic.ReadsFrom.ite {c : Prop} [Decidable c]
    (hp : c → L.ReadsFrom δ k p q R) (hp' : ¬c → L.ReadsFrom δ k p' q' R) :
  L.ReadsFrom δ k (if c then p else p') (if c then q else q') R
  := fun s hs hk => .ite (fun h => hp h s hs hk) fun h => hp' h s hs hk

/-- A symbol has been gone over if it has been eaten, and nothing has if not. -/
theorem Logic.reads_eat [IsTrans Nat δ] {symbol : Symbol}
    (heaten : L.Reads δ p q fun a ks => R a (.symbol symbol :: ks))
    (hleft : L.Reads δ p' q' R) :
  L.Reads δ (do if ← eat symbol then p else p') (do if ← eat symbol then q else q') R
  := by
  intro k s hs hk
  have heat : L.Holds s (eat symbol) (eat symbol) fun eaten t =>
      if eaten then t = s.advance ∧ s.kind = .symbol symbol else t = s := by
    apply (Logic.holds_current hs).bind
    rintro token _ - ⟨rfl, rfl⟩
    apply Logic.Holds.ite
    · intro hsymbol
      apply (Logic.holds_advance hs).bind
      rintro _ _ ht rfl
      exact Logic.holds_pure ht ⟨rfl, hsymbol⟩
    · intro _
      exact Logic.holds_pure hs rfl
  apply heat.bind
  intro eaten t ht hend
  cases eaten with
  | true =>
    obtain ⟨rfl, hsymbol⟩ := hend
    apply (heaten _ s.advance ht rfl).mono
    rintro a u ⟨hdepth, ks, hks, ha⟩
    have hread := hs.consumes_advance (by rw [hsymbol]; rintro ⟨⟩)
    rw [hsymbol] at hread
    exact ⟨hdepth, _, hread.trans hks, ha⟩
  | false =>
    obtain rfl : t = s := hend
    apply hleft k t ht hk

theorem Logic.Reads.nested {p : m Expr} {q : Parser Expr} {R : Expr → List TokenKind → Prop}
    (h : L.Reads Eq p q R) :
  L.Reads Eq (nested p) (nested q) R
  := by
  intro k s hs hk
  apply (Logic.holds_deepen hs).bind
  rintro _ _ hdeeper rfl
  apply (h k s.deepen hdeeper hk).bind
  rintro e t ht ⟨hdepth, hread⟩
  have hback : t.depth - 1 = s.depth := by
    rw [← hdepth]
    rfl
  apply (Logic.holds_modify (ht.withDepth (hback ▸ hs.depth_le))).bind
  rintro _ _ hend rfl
  exact Logic.holds_pure hend ⟨hback.symm, hread⟩

end

section

variable {δ : Nat → Nat → Prop} {k : TokenKind} {p : m α} {q : Parser α} {f : α → m β}
  {g : α → Parser β} {R : α → List TokenKind → Prop} {S : β → List TokenKind → Prop}

/-- What follows goes on behind the tokens gone over. -/
theorem Logic.ReadsFrom.bind [IsTrans Nat δ]
    (h : L.ReadsFrom δ k p q R)
    (hf : ∀ a ks, R a ks → L.Reads δ (f a) (g a) fun b ls => S b (ks ++ ls)) :
  L.ReadsFrom δ k (p >>= f) (q >>= g) S
  := by
  intro s hs hk
  apply (h s hs hk).bind
  rintro a t ht ⟨hdepth, ks, hks, ha⟩
  apply (hf a ks ha t.kind t ht rfl).mono
  rintro b u ⟨hdepth', ls, hls, hb⟩
  exact ⟨IsTrans.trans _ _ _ hdepth hdepth', ks ++ ls, hks.trans hls, hb⟩

theorem Logic.Reads.bind [IsTrans Nat δ]
    (h : L.Reads δ p q R)
    (hf : ∀ a ks, R a ks → L.Reads δ (f a) (g a) fun b ls => S b (ks ++ ls)) :
  L.Reads δ (p >>= f) (q >>= g) S
  := fun k => (h k).bind hf

theorem Logic.readsFrom_get {f : ParserState → m β} {g : ParserState → Parser β}
    (h : ∀ s, s.kind = k → L.ReadsFrom δ k (f s) (g s) S) :
  L.ReadsFrom δ k (get >>= f) (get >>= g) S
  := by
  intro s hs hk
  apply (Logic.holds_get hs).bind
  rintro _ _ - ⟨rfl, rfl⟩
  apply h _ hk _ hs hk

/-- The kind of the current token is known once it has been looked at. -/
theorem Logic.reads_current {f : Token → m β} {g : Token → Parser β}
    (h : ∀ token, L.ReadsFrom δ token.kind (f token) (g token) S) :
  L.Reads δ (current >>= f) (current >>= g) S
  := by
  intro k s hs _
  apply (Logic.holds_current hs).bind
  rintro _ _ - ⟨rfl, rfl⟩
  apply h _ _ hs rfl

/-- Behind a current token that is not the end, the token has been gone over. -/
theorem Logic.readsFrom_advance {f : Unit → m β} {g : Unit → Parser β}
    (hk : k ≠ .eof) (h : L.Reads δ (f ()) (g ()) fun b ks => S b (k :: ks)) :
  L.ReadsFrom δ k (advance >>= f) (advance >>= g) S
  := by
  rintro s hs rfl
  apply (Logic.holds_advance hs).bind
  rintro _ _ ht rfl
  apply (h _ s.advance ht rfl).mono
  rintro b u ⟨hdepth, ks, hks, hb⟩
  exact ⟨hdepth, _, (hs.consumes_advance hk).trans hks, hb⟩

theorem Logic.readsFrom_deepen {f : Unit → m β} {g : Unit → Parser β}
    (h : L.ReadsFrom LE.le k (f ()) (g ()) S) :
  L.ReadsFrom LE.le k (deepen >>= f) (deepen >>= g) S
  := by
  intro s hs hk
  apply (Logic.holds_deepen hs).bind
  rintro _ _ ht rfl
  apply (h s.deepen ht hk).mono
  rintro b u ⟨hdepth, hread⟩
  exact ⟨Nat.le_of_succ_le hdepth, hread⟩

end

end Parser

end RuleLang
