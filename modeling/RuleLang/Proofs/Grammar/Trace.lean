import RuleLang.Proofs.Grammar.Completeness

/-!
# States that readers pass through

`Traced` is a monad that lists the states which a reader sets, besides what it reads; the readers
of expressions run in it as they do in `Parser`.  That the two runs from one state have the same
result and that all states on the way lie within the limit of the depth and within the tokens is a
logic.  Every reader of a construct gives back the depth that it has used and goes over a token
(`Construct.read_within`).
-/

namespace RuleLang

/-- A run of a reader: the states that it sets, up to its end or its failure, and its result. -/
structure Run (α : Type) where
  visited : List ParserState
  result : Except ParseError (α × ParserState)

/-- A reader that lists the states it sets. -/
def Traced (α : Type) : Type := Nat → ParserState → Run α

namespace Traced

/-- What a reader does next, behind the states it has already set. -/
def andThen {α β : Type} (run : Run α) (next : α → ParserState → Run β) : Run β :=
  match run.result with
  | .ok (a, t) => ⟨run.visited ++ (next a t).visited, (next a t).result⟩
  | .error e => ⟨run.visited, .error e⟩

instance : Monad Traced where
  pure a := fun _ s => ⟨[], .ok (a, s)⟩
  bind p f := fun limit s => andThen (p limit s) fun a t => f a limit t

instance : MonadReaderOf Nat Traced where
  read := fun limit s => ⟨[], .ok (limit, s)⟩

instance : MonadStateOf ParserState Traced where
  get := fun _ s => ⟨[], .ok (s, s)⟩
  set t := fun _ _ => ⟨[t], .ok (⟨⟩, t)⟩
  modifyGet f := fun _ s => ⟨[(f s).2], .ok (f s)⟩

instance : MonadExceptOf ParseError Traced where
  throw e := fun _ _ => ⟨[], .error e⟩
  tryCatch p handle := fun limit s =>
    match (p limit s).result with
    | .ok _ => p limit s
    | .error e => ⟨(p limit s).visited ++ (handle e limit s).visited, (handle e limit s).result⟩

end Traced

namespace Parser

variable {α β : Type} {limit : Nat} {tokens : List Token} {s : ParserState}

/-! ### Runs side by side -/

/-- From the state `s` the reader that lists its states has the result of the other one, and all
states that it sets are within the limit and the tokens. -/
structure Tracks (limit : Nat) (tokens : List Token) (s : ParserState) (p : Traced α)
    (q : Parser α) : Prop where
  result_eq : (p limit s).result = q limit s
  visited : ∀ t ∈ (p limit s).visited, t.Within limit tokens

/-- One reader behind another begins where that ends. -/
theorem Tracks.bind {p : Traced α} {q : Parser α} {f : α → Traced β} {g : α → Parser β}
    (hp : Tracks limit tokens s p q)
    (hf : ∀ a t, q.Yields limit s a t → Tracks limit tokens t (f a) (g a)) :
  Tracks limit tokens s (p >>= f) (q >>= g)
  := by
  have hrun : (p >>= f) limit s = Traced.andThen (p limit s) fun a t => f a limit t := rfl
  have hparse : (q >>= g) limit s = (q limit s >>= fun x => g x.1 limit x.2) := rfl
  cases hq : q limit s with
  | error e =>
    -- The states listed before a failure are those of the first reader only.
    have hresult := hp.result_eq.trans hq
    constructor
    · rw [hrun, hparse, hq, Traced.andThen, hresult]
      rfl
    · rw [hrun, Traced.andThen, hresult]
      apply hp.visited
  | ok x =>
    obtain ⟨a, u⟩ := x
    have hresult := hp.result_eq.trans hq
    have hnext := hf a u hq
    constructor
    · rw [hrun, hparse, hq, Traced.andThen, hresult]
      apply hnext.result_eq
    · rw [hrun, Traced.andThen, hresult]
      intro t ht
      obtain ht | ht := List.mem_append.mp ht
      · apply hp.visited t ht
      · apply hnext.visited t ht

/-- A reader that sets no state. -/
theorem tracks_of_eq {p : Traced α} {q : Parser α} (hp : p limit s = ⟨[], q limit s⟩) :
  Tracks limit tokens s p q
  := by
  constructor
  · rw [hp]
  · rw [hp]
    rintro t ⟨⟩

/-- A reader that sets one state. -/
theorem tracks_of_set {p : Traced α} {q : Parser α} {u : ParserState}
    (hu : u.Within limit tokens) (hp : p limit s = ⟨[u], q limit s⟩) :
  Tracks limit tokens s p q
  := by
  constructor
  · rw [hp]
  · rw [hp]
    apply List.forall_mem_singleton.mpr hu

/-- The depth is counted up below the limit only. -/
theorem tracks_deepen (hs : s.Within limit tokens) :
  Tracks limit tokens s deepen deepen
  := by
  apply Tracks.bind (tracks_of_eq rfl)
  intro d t hd
  obtain ⟨rfl, rfl⟩ := (yields_iff_of_eq rfl).mp hd
  apply Tracks.bind (tracks_of_eq rfl)
  intro u t hu
  obtain ⟨rfl, rfl⟩ := (yields_iff_of_eq rfl).mp hu
  by_cases hdepth : d ≤ t.depth
  · rw [if_pos hdepth, if_pos hdepth]
    exact tracks_of_eq rfl
  · rw [if_neg hdepth, if_neg hdepth]
    exact tracks_of_set (hs.deepen (Nat.lt_of_not_le hdepth)) rfl

/-- The runs that list their states beside those that do not. -/
def Logic.tracking (limit : Nat) (tokens : List Token) : Logic limit tokens Traced where
  Rel := Tracks limit tokens
  rel_pure _ := tracks_of_eq rfl
  rel_bind := Tracks.bind
  rel_get := tracks_of_eq rfl
  rel_set hu := tracks_of_set hu rfl
  rel_modify hu := tracks_of_set hu rfl
  rel_throw _ := tracks_of_eq rfl
  rel_deepen := tracks_deepen

/-! ### All constructs -/

/-- What a reader reads. -/
inductive Construct where
  | level (l : Level)
  | tree (n : Nonterminal)
  /-- A call behind the name of its function. -/
  | call (name : String)
  /-- A list behind its opening bracket. -/
  | list
  /-- An object behind its opening brace. -/
  | object
  /-- A duration behind its first amount; a token that is no unit there has the fault `missing`. -/
  | duration (amount : Int64) (missing : TokenKind → ParseFault)
  /-- What stands behind a dot. -/
  | member (base : Expr)

/-- The reader of a construct, given the readers of the levels inside it. -/
def Construct.read {m : Type → Type} [Monad m] [MonadReaderOf Nat m]
    [MonadStateOf ParserState m] [MonadExceptOf ParseError m] (nest : Level → m Expr) :
    Construct → m Expr
  | level l => nest l
  | tree n => ofNonterminal nest n
  | call name => Parser.call (nest .expression) name
  | list => do
    let items ← sequence (nest .expression) .rightBracket (.openEnclosure .list)
    return .list items
  | object => do
    let entries ← sequence (entry (nest .expression)) .rightBrace (.openEnclosure .object)
    return .object entries
  | duration amount missing => do
    match (← current).kind.unit? with
    | some unit => Parser.duration amount unit
    | none => fail missing
  | member base => Parser.member (nest .expression) base

/-- In every logic a construct goes over a token and gives back the depth that it has counted. -/
theorem Construct.reads_read {m : Type → Type} [Monad m] [MonadReaderOf Nat m]
    [MonadStateOf ParserState m] [MonadExceptOf ParseError m] {L : Logic limit tokens m}
    {nest : Level → m Expr} {nest' : Level → Parser Expr}
    (hnest : ∀ l, L.Reads Eq (nest l) (nest' l) fun e ks => Derives (.tree l.nonterminal e) ks)
    (c : Construct) :
  L.Reads Eq (c.read nest) (c.read nest') fun _ ks => ks ≠ []
  := by
  have htree {n : Nonterminal} {p : m Expr} {q : Parser Expr}
      (h : L.Reads Eq p q fun e ks => Derives (.tree n e) ks) :
      L.Reads Eq p q fun _ ks => ks ≠ [] := by
    apply h.mono
    rintro e _ he rfl
    obtain ⟨k, ls, hks, -⟩ := he.tree_head
    cases hks
  cases c with
  | level l => apply htree (hnest l)
  | tree n =>
    cases n with
    | disjunction => apply htree (Logic.reads_disjunctions hnest)
    | conjunction => apply htree (Logic.reads_conjunctions hnest)
    | negation => apply htree (Logic.reads_negations hnest)
    | comparison => apply htree (Logic.reads_comparisons hnest)
    | membership => apply htree (Logic.reads_memberships hnest)
    | sum => apply htree (Logic.reads_sums hnest)
    | product => apply htree (Logic.reads_products hnest)
    | sign => apply htree (Logic.reads_signs hnest)
    | access => apply htree (Logic.reads_access hnest)
    | operand => apply htree (Logic.reads_primary (hnest .expression))
  | call name =>
    apply (Logic.reads_call (hnest .expression) name).mono
    rintro e _ ⟨args, ls, -, -, rfl⟩
    apply List.cons_ne_nil
  | list =>
    apply (Logic.reads_sequence (hnest .expression) .rightBracket _).bind
    rintro items _ ⟨ls, -, rfl⟩
    apply Logic.reads_pure
    simp
  | object =>
    apply (Logic.reads_sequence (Logic.reads_entry (hnest .expression)) .rightBrace _).bind
    rintro entries _ ⟨ls, -, rfl⟩
    apply Logic.reads_pure
    simp
  | duration amount missing =>
    apply Logic.reads_current
    intro word
    cases hunit : word.kind.unit? with
    | none => apply Logic.readsFrom_fail
    | some unit =>
      apply (Logic.reads_duration hunit amount).mono
      intro e ks he
      apply he.1
  | member base =>
    apply (Logic.reads_member (hnest .expression) base).mono
    intro e ks he
    apply he.1

/-- Every reader of a construct, begun in a state within the limit of the depth and the tokens,
sets only states within these, whether it fails or not.  If it reads an expression, the depth at
the end is what it was at the beginning, and it has gone over at least one token. -/
theorem Construct.read_within (c : Construct) (fuel : Nat) (hs : s.Within limit tokens) :
  let run := (c.read (Parser.level fuel) : Traced Expr) limit s
  run.result = (c.read (Parser.level fuel) : Parser Expr) limit s
    ∧ (∀ t ∈ run.visited, t.Within limit tokens)
    ∧ ∀ e t, run.result = .ok (e, t) → t.Within limit tokens ∧ t.depth = s.depth
      ∧ ∃ read, read ≠ [] ∧ s.cursor.rest = read ++ t.cursor.rest
  := by
  intro run
  have hzero (l : Level) (s : ParserState) (_ : s.Within limit tokens) :
      (Logic.tracking limit tokens).Rel s (Parser.level 0 l) (Parser.level 0 l) :=
    tracks_of_eq rfl
  have h := c.reads_read (Logic.reads_level hzero fuel) _ s hs rfl
  use h.rel.result_eq, h.rel.visited
  intro e t hread
  obtain ⟨ht, hdepth, ks, ⟨-, read, rfl, hrest⟩, hks⟩ := h.ends (h.rel.result_eq.symm.trans hread)
  refine ⟨ht, hdepth.symm, read, ?_, hrest⟩
  rintro rfl
  exact hks rfl

/-- The product in `[a * b]` is read from the depth 1 through the depth 2, which is the limit,
and back. -/
theorem Construct.read_within_product :
  let token (k : TokenKind) : Token := ⟨k, .point 0, 1, 1, 0⟩
  let tokens := [token (.symbol .leftBracket), token (.ident "a"), token (.symbol .star),
    token (.ident "b"), token (.symbol .rightBracket), token .eof]
  let s : ParserState := ⟨⟨tokens.drop 1, .endOf tokens⟩, 1⟩
  let t : ParserState := ⟨⟨tokens.drop 4, .endOf tokens⟩, 1⟩
  let run := ((Construct.tree .product).read (Parser.level 2) : Traced Expr) 2 s
  s.Within 2 tokens
    ∧ run.result = .ok (.arithmetic .multiply (.var "a") (.var "b"), t)
    ∧ run.visited.map ParserState.depth = [1, 1, 2, 2, 2, 2, 1]
    ∧ (∀ u ∈ run.visited, u.Within 2 tokens)
    ∧ t.Within 2 tokens ∧ t.depth = s.depth
    ∧ ∃ read, read ≠ [] ∧ s.cursor.rest = read ++ t.cursor.rest
  := by
  intro token tokens s t run
  have hs : s.Within 2 tokens := ⟨by decide, ⟨[token (.symbol .leftBracket)], rfl⟩, rfl⟩
  obtain ⟨-, hvisited, hends⟩ := Construct.read_within (.tree .product) 2 hs
  have hresult : run.result = .ok (.arithmetic .multiply (.var "a") (.var "b"), t) := rfl
  exact ⟨hs, hresult, rfl, hvisited, hends _ t hresult⟩

end Parser

end RuleLang
