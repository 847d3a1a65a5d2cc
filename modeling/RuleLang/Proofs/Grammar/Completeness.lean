import RuleLang.Proofs.Grammar.Descent
import RuleLang.Proofs.Grammar.Needs
import RuleLang.Proofs.Grammar.Soundness

/-!
# Everything in the grammar is read

A parser that stands before tokens which its nonterminal derives goes over just these
tokens, and reads the tree they are derived with, if the limit of the depth allows the descent
of the derivation; else it reads nothing.  The token behind them must not extend the tree
(`Nonterminal.Stops`).  The induction is on derivations with their descents, and
`Parser.Complete` is what it shows of each kind of phrase.
-/

namespace RuleLang

namespace Parser

/-! ### The parsers of nonterminals -/

/-- The operators of one symbol on a level. -/
def operatorOf? : Nonterminal → Symbol → Option (Expr → Expr → Expr)
  | .disjunction, s => if s = .wordOr ∨ s = .bars then some .or else none
  | .conjunction, s => if s = .wordAnd ∨ s = .ampersands then some .and else none
  | .comparison, s => (CompareOp.ofSymbol? s).map .compare
  | .membership, s => (MembershipOp.ofSymbol? s).map .membership
  | .sum, s => (ArithmeticOp.ofAdditive? s).map .arithmetic
  | .product, s => (ArithmeticOp.ofMultiplicative? s).map .arithmetic
  | _, _ => none

/-- The parser of a nonterminal. -/
def ofNonterminal {m : Type → Type} [Monad m] [MonadReaderOf Nat m]
    [MonadStateOf ParserState m] [MonadExceptOf ParseError m] (nest : Level → m Expr) :
    Nonterminal → m Expr
  | .disjunction => disjunctions nest
  | .conjunction => conjunctions nest
  | .negation => negations nest
  | .comparison => comparisons nest
  | .membership => memberships nest
  | .sum => sums nest
  | .product => products nest
  | .sign => signs nest
  | .access => chain (primary (nest .expression)) (postfixStep (nest .expression))
  | .operand => primary (nest .expression)

variable (nest : Level → Parser Expr)

/-- The step of the chains of a nonterminal. -/
def stepOf : Nonterminal → Expr → Parser (Option Expr)
  | .access => postfixStep (nest .expression)
  | .membership => membershipStep (sums nest)
  | n =>
    match n.operand? with
    | some m => binaryStep (operatorOf? n) (ofNonterminal nest m)
    | none => fun _ => pure none

theorem ofNonterminal_eq_chain {n m : Nonterminal} (h : n.operand? = some m) :
  ofNonterminal nest n = chain (ofNonterminal nest m) (stepOf nest n)
  := by
  cases n <;> cases h <;> rfl

theorem body_eq_ofNonterminal (l : Level) :
  l.body nest = ofNonterminal nest l.nonterminal
  := by
  cases l <;> rfl

/-! ### Single steps -/

variable {nest} {limit depth : Nat} {last : Token}

/-- The kind of the first of some tokens, or of the last token if there is none. -/
def kindAhead (last : Token) (tokens : List Token) : TokenKind := (tokens.headD last).kind

theorem operatorOf?_eq_none {n : Nonterminal} {s : Symbol} (h : n.rank < s.rank) :
  operatorOf? n s = none
  := by
  cases n
  case disjunction => cases s <;> first | rfl | (revert h; decide)
  case conjunction => cases s <;> first | rfl | (revert h; decide)
  case comparison => cases s <;> first | rfl | (revert h; decide)
  case membership => cases s <;> first | rfl | (revert h; decide)
  case sum => cases s <;> first | rfl | (revert h; decide)
  case product => cases s <;> first | rfl | (revert h; decide)
  all_goals rfl

theorem operatorOf?_of_connective {n : Nonterminal} {s : Symbol}
    {combine : Expr → Expr → Expr} (h : Connective n [s] combine) :
  operatorOf? n s = some combine
  := by
  cases h
  case compare op => cases op <;> rfl
  case member op => cases op <;> rfl
  all_goals rfl

theorem yields_binaryStep_none {operator? : Symbol → Option (Expr → Expr → Expr)}
    {operand : Parser Expr} {left : Expr} {s : ParserState}
    (h : ∀ symbol, s.kind = .symbol symbol → operator? symbol = none) :
  Yields (binaryStep operator? operand left) limit s none s
  := by
  apply yields_bind_current.mpr
  have hkind : s.cursor.current.kind = s.kind := rfl
  rw [hkind]
  cases hs : s.kind
  case symbol symbol =>
    dsimp only
    rw [h symbol hs]
    exact yields_pure.mpr ⟨rfl, rfl⟩
  all_goals exact yields_pure.mpr ⟨rfl, rfl⟩

/-- No step is taken before a token at which the level stops. -/
theorem yields_stepOf_none {n : Nonterminal} {left : Expr} {s : ParserState}
    (h : n.Stops s.kind) :
  Yields (stepOf nest n left) limit s none s
  := by
  have hnone : ∀ symbol, s.kind = .symbol symbol → operatorOf? n symbol = none := by
    intro symbol hs
    rw [hs] at h
    apply operatorOf?_eq_none h
  cases n
  case access =>
    apply yields_bind_current.mpr
    have hkind : s.cursor.current.kind = s.kind := rfl
    rw [hkind]
    cases hs : s.kind
    case symbol symbol =>
      rw [hs] at h
      cases symbol
      case dot => cases Nat.lt_irrefl 1 h
      case leftBracket => cases Nat.lt_irrefl 1 h
      all_goals exact yields_pure.mpr ⟨rfl, rfl⟩
    all_goals exact yields_pure.mpr ⟨rfl, rfl⟩
  case membership =>
    rw [stepOf, membershipStep, yields_bind_get]
    apply yields_ite.mpr
    right
    constructor
    · rintro ⟨hnot, -⟩
      rw [ParserState.kind, hnot] at h
      cases Nat.lt_irrefl 5 h
    · apply yields_binaryStep_none hnone
  case negation => exact yields_pure.mpr ⟨rfl, rfl⟩
  case sign => exact yields_pure.mpr ⟨rfl, rfl⟩
  case operand => exact yields_pure.mpr ⟨rfl, rfl⟩
  all_goals exact yields_binaryStep_none hnone

/-- A binary operator is read with its right operand, one step deeper. -/
theorem needs_binaryStep {operator? : Symbol → Option (Expr → Expr → Expr)}
    {operand : Parser Expr} {combine : Expr → Expr → Expr} {left right : Expr}
    {s t : ParserState} {symbol : Symbol} {need : Nat} (hs : s.kind = .symbol symbol)
    (hop : operator? symbol = some combine) (hneed : s.depth < need)
    (hright : s.depth < limit → operand.Needs limit s.deepen.advance need right t) :
  (binaryStep operator? operand left).Needs limit s need (some (combine left right)) t
  := by
  have hkind : s.cursor.current.kind = .symbol symbol := hs
  apply needs_bind_of_eq rfl
  rw [hkind]
  dsimp only
  rw [hop]
  apply needs_bind_deepen hneed
  intro hdepth
  apply needs_bind_of_eq rfl
  exact (hright hdepth).map

theorem needs_stepOf_symbol {n m : Nonterminal} {symbol : Symbol}
    {combine : Expr → Expr → Expr} {left right : Expr} {s t : ParserState} {need : Nat}
    (hn : n.operand? = some m) (hop : Connective n [symbol] combine)
    (hs : s.kind = .symbol symbol) (hneed : s.depth < need)
    (hright : s.depth < limit →
      (ofNonterminal nest m).Needs limit s.deepen.advance need right t) :
  (stepOf nest n left).Needs limit s need (some (combine left right)) t
  := by
  have hbinary : (binaryStep (operatorOf? n) (ofNonterminal nest m) left).Needs limit s need
      (some (combine left right)) t :=
    needs_binaryStep hs (operatorOf?_of_connective hop) hneed hright
  cases n
  case access => cases hop
  case membership =>
    obtain rfl := Option.some.inj hn
    have hsingle : ¬(s.cursor.current.kind = .symbol .wordNot
        ∧ s.cursor.next = .symbol .wordIn) := by
      rintro ⟨hnot, -⟩
      obtain rfl : symbol = .wordNot := TokenKind.symbol.inj (hs.symm.trans hnot)
      generalize hnotIn : [Symbol.wordNot] = op at hop
      cases hop
      case member op => cases op <;> cases hnotIn
      case notIn => cases hnotIn
    apply needs_bind_of_eq rfl
    apply needs_ite_of_neg hsingle
    apply hbinary
  all_goals
    cases hn
    try exact hbinary

/-- A step is taken over a connective and a right operand. -/
theorem needs_stepOf_connective {n m : Nonterminal} {op : List Symbol}
    {combine : Expr → Expr → Expr} {left right : Expr} {read rest : List Token}
    {t : ParserState} {need : Nat} (hn : n.operand? = some m) (hop : Connective n op combine)
    (hread : read.map Token.kind = op.map .symbol) (hneed : depth + op.length ≤ need)
    (hright : depth + op.length ≤ limit →
      (ofNonterminal nest m).Needs limit ⟨⟨rest, last⟩, depth + op.length⟩ need right t) :
  (stepOf nest n left).Needs limit ⟨⟨read ++ rest, last⟩, depth⟩ need
    (some (combine left right)) t
  := by
  obtain ⟨s, rfl⟩ | ⟨rfl, rfl, rfl⟩ := hop.single_or_notIn
  · obtain ⟨token, read', rfl, htoken, hread'⟩ := List.map_eq_cons_iff.mp hread
    obtain rfl := List.map_eq_nil_iff.mp hread'
    exact needs_stepOf_symbol (s := ⟨⟨[token] ++ rest, last⟩, depth⟩) hn hop htoken hneed hright
  · obtain rfl := Option.some.inj hn
    obtain ⟨token, read', rfl, htoken, hread'⟩ := List.map_eq_cons_iff.mp hread
    obtain ⟨token', read', rfl, htoken', hread'⟩ := List.map_eq_cons_iff.mp hread'
    obtain rfl := List.map_eq_nil_iff.mp hread'
    have hneed : depth + 2 ≤ need := hneed
    apply needs_bind_of_eq rfl
    apply needs_ite_of_pos ⟨htoken, htoken'⟩
    apply needs_bind_deepen (by dsimp only; omega)
    intro _
    apply needs_bind_of_eq rfl
    apply needs_bind_deepen (by dsimp only [ParserState.deepen, ParserState.advance]; omega)
    intro hdepth
    apply needs_bind_of_eq rfl
    exact (hright hdepth).map

theorem yields_stepOf_connective {n m : Nonterminal} {op : List Symbol}
    {combine : Expr → Expr → Expr} {left right : Expr} {read rest : List Token}
    {t : ParserState} (hn : n.operand? = some m) (hop : Connective n op combine)
    (hread : read.map Token.kind = op.map .symbol) (hdepth : depth + op.length ≤ limit)
    (hright : (ofNonterminal nest m).Yields limit ⟨⟨rest, last⟩, depth + op.length⟩ right t) :
  Yields (stepOf nest n left) limit ⟨⟨read ++ rest, last⟩, depth⟩ (some (combine left right)) t
  := by
  apply Needs.yields _ hdepth
  exact needs_stepOf_connective hn hop hread (Nat.le_refl _) fun _ => .of_yields hright hdepth

/-! ### What is shown of derivations -/

variable (limit last) in
/-- The nonterminal `n` reads `e` from tokens of the kinds `ks` before a token at which it
stops, and needs what `d` counts. -/
def CompleteTree (n : Nonterminal) (e : Expr) (d : Descent) (ks : List TokenKind) : Prop :=
  ∀ fuel depth read rest, read.map Token.kind = ks → n.Stops (kindAhead last rest) →
    depth ≤ limit → limit ≤ fuel + depth →
    Needs (ofNonterminal (level fuel) n) limit ⟨⟨read ++ rest, last⟩, depth⟩
      (depth + d.deepest) e ⟨⟨rest, last⟩, depth⟩

variable (limit last) in
/-- The steps of the nonterminal `n` lead from `left` to `e` over tokens of the kinds `ks`
before a token at which it stops, and need what `d` counts. -/
def CompleteTail (n : Nonterminal) (left e : Expr) (d : Descent) (ks : List TokenKind) : Prop :=
  ∀ fuel depth read rest ahead, read.map Token.kind = ks → n.Stops (kindAhead last rest) →
    depth ≤ limit → limit ≤ fuel + depth → read.length ≤ ahead.length →
    (steps (stepOf (level fuel) n) ahead left).Needs limit ⟨⟨read ++ rest, last⟩, depth⟩
      (depth + d.deepest) e ⟨⟨rest, last⟩, depth + d.kept⟩

variable (depth) in
/-- A level reads what its nonterminal reads, one step deeper. -/
theorem CompleteTree.level {l : Level} {e : Expr} {d : Descent} {ks : List TokenKind}
    (h : CompleteTree limit last l.nonterminal e d ks) {fuel : Nat} {read rest : List Token}
    (hread : read.map Token.kind = ks) (hstops : l.nonterminal.Stops (kindAhead last rest))
    (hfuel : limit ≤ fuel + depth) :
  Needs (Parser.level fuel l) limit ⟨⟨read ++ rest, last⟩, depth⟩
    (depth + d.nested.deepest) e ⟨⟨rest, last⟩, depth⟩
  := by
  rw [Descent.deepest_nested]
  cases fuel with
  | zero =>
    intro e' t
    rw [Parser.level, yields_bind_read, yields_fail]
    constructor
    · apply False.elim
    · rintro ⟨hle, -⟩
      omega
  | succ fuel =>
    have hbody : depth < limit → Needs (l.body (Parser.level fuel)) limit
        ⟨⟨read ++ rest, last⟩, depth + 1⟩ (depth + (d.deepest + 1)) e
        ⟨⟨rest, last⟩, depth + 1⟩ := by
      intro hdepth
      have h := h fuel (depth + 1) read rest hread hstops hdepth (by omega)
      rw [body_eq_ofNonterminal]
      exact h.congr (by omega)
    have hneed : depth < depth + (d.deepest + 1) := by omega
    exact needs_nested (s := ⟨⟨read ++ rest, last⟩, depth⟩) (u := ⟨⟨rest, last⟩, depth + 1⟩) hneed
      hbody

/-- Before a tail that goes over tokens, every tighter nonterminal stops. -/
theorem stops_of_tail {n m : Nonterminal} {left e : Expr} {ls : List TokenKind}
    {read rest : List Token} (htail : Derives (.tail n left e) ls)
    (hread : read.map Token.kind = ls) (hstops : n.Stops (kindAhead last rest))
    (hrank : m.rank < n.rank) :
  m.Stops (kindAhead last (read ++ rest))
  := by
  obtain rfl | ⟨s, ls, rfl, hs⟩ := htail.tail_head
  · obtain rfl := List.map_eq_nil_iff.mp hread
    apply hstops.mono (Nat.le_of_lt hrank)
  · obtain ⟨token, read, rfl, htoken, -⟩ := List.map_eq_cons_iff.mp hread
    have hkind : kindAhead last (token :: read ++ rest) = .symbol s := htoken
    rw [hkind]
    change m.rank < s.rank
    rw [hs]
    apply hrank

variable {a b d : Descent}

theorem CompleteTree.chain {n m : Nonterminal} {left e : Expr} {ks ls : List TokenKind}
    (hn : n.operand? = some m) (hleft : CompleteTree limit last m left a ks)
    (hderives : Derives (.tail n left e) ls) (htail : CompleteTail limit last n left e b ls) :
  CompleteTree limit last n e (a.closed ++ b) (ks ++ ls)
  := by
  intro fuel depth read rest hread hstops hdepth hfuel
  obtain ⟨read₁, read₂, rfl, hread₁, hread₂⟩ := List.map_eq_append_iff.mp hread
  have hstops₁ : m.Stops (kindAhead last (read₂ ++ rest)) :=
    stops_of_tail hderives hread₂ hstops (Nonterminal.rank_lt_of_operand? hn)
  have hfirst := hleft fuel depth read₁ (read₂ ++ rest) hread₁ hstops₁ hdepth hfuel
  have hsteps := htail fuel depth read₂ rest (read₂ ++ rest) hread₂ hstops hdepth hfuel (by simp)
  rw [ofNonterminal_eq_chain _ hn, List.append_assoc]
  have hchain := needs_chain hfirst fun _ => hsteps
  apply hchain.congr
  simp only [Descent.deepest_append, Descent.deepest_closed, Descent.kept_closed]
  omega

theorem CompleteTail.nil
    (n : Nonterminal) (e : Expr) :
  CompleteTail limit last n e e .flat []
  := by
  intro fuel depth read rest ahead hread hstops hdepth hfuel hahead
  obtain rfl := List.map_eq_nil_iff.mp hread
  apply Needs.of_yields _ hdepth
  cases ahead with
  | nil => exact yields_pure.mpr ⟨rfl, rfl⟩
  | cons token ahead =>
    apply yields_bind.mpr
    use none, ⟨⟨rest, last⟩, depth⟩, yields_stepOf_none hstops
    exact yields_pure.mpr ⟨rfl, rfl⟩

/-- A step and the tail behind it are a tail. -/
theorem CompleteTail.step {n : Nonterminal} {left next e : Expr} {ks ls : List TokenKind}
    {count : Nat} (hderives : Derives (.tail n next e) ls)
    (htail : CompleteTail limit last n next e b ls) (hks : ks ≠ [])
    (hstep : ∀ fuel depth read rest, read.map Token.kind = ks →
      (∀ m : Nonterminal, m.rank < n.rank → m.Stops (kindAhead last rest)) →
      limit ≤ fuel + depth →
      (stepOf (Parser.level fuel) n left).Needs limit ⟨⟨read ++ rest, last⟩, depth⟩
        (depth + (Descent.step count a).deepest) (some next)
        ⟨⟨rest, last⟩, depth + count⟩) :
  CompleteTail limit last n left e (.step count a ++ b) (ks ++ ls)
  := by
  intro fuel depth read rest ahead hread hstops hdepth hfuel hahead
  obtain ⟨read₁, read₂, rfl, hread₁, hread₂⟩ := List.map_eq_append_iff.mp hread
  rw [List.length_append] at hahead
  have hpos : 0 < read₁.length := by
    rw [← List.length_map Token.kind, hread₁]
    apply List.length_pos_iff.mpr hks
  have hfirst := hstep fuel depth read₁ (read₂ ++ rest) hread₁
    (fun m hm => stops_of_tail hderives hread₂ hstops hm) hfuel
  cases ahead with
  | nil =>
    rw [List.length_nil] at hahead
    omega
  | cons token ahead =>
    rw [List.length_cons] at hahead
    rw [List.append_assoc, Descent.kept_append, Descent.kept_step, ← Nat.add_assoc]
    rw [steps]
    refine (hfirst.bind (l := depth + count + b.deepest) fun hneed => ?_).congr ?_
    · rw [Descent.deepest_step] at hneed
      exact htail fuel (depth + count) read₂ rest ahead hread₂ hstops (by omega) (by omega)
        (by omega)
    · simp only [Descent.deepest_append, Descent.deepest_step, Descent.kept_step]
      omega

theorem CompleteTail.binary {n m : Nonterminal} {op : List Symbol}
    {combine : Expr → Expr → Expr} {left right e : Expr} {ks ls : List TokenKind}
    (hn : n.operand? = some m) (hop : Connective n op combine)
    (hright : CompleteTree limit last m right a ks)
    (hderives : Derives (.tail n (combine left right) e) ls)
    (htail : CompleteTail limit last n (combine left right) e b ls) :
  CompleteTail limit last n left e (.step op.length a ++ b) (op.map .symbol ++ ks ++ ls)
  := by
  obtain ⟨s, op', rfl, -⟩ := hop.exists_head
  apply htail.step hderives
  · simp
  · intro fuel depth read rest hread hstops hfuel
    obtain ⟨read₁, read₂, rfl, hread₁, hread₂⟩ := List.map_eq_append_iff.mp hread
    rw [Descent.deepest_step, ← Nat.add_assoc, List.append_assoc]
    apply needs_stepOf_connective hn hop hread₁ (Nat.le_add_right _ _)
    intro hdepth
    apply hright fuel _ read₂ rest hread₂ (hstops m (Nonterminal.rank_lt_of_operand? hn)) hdepth
    omega

/-! ### Sequences -/

/-- Whether a symbol closes sequences: no expression goes on over it or begins with it, and it
separates no items. -/
structure IsCloser (close : Symbol) : Prop where
  stops : Nonterminal.disjunction.rank < close.rank
  ne_comma : close ≠ .comma
  not_begins : ¬Nonterminal.disjunction.Begins (.symbol close)

/-- Before a symbol that is looser than every level, every expression ends. -/
theorem stops_before {token : Token} {s : Symbol} (h : token.kind = .symbol s)
    (hs : Nonterminal.disjunction.rank < s.rank) (rest : List Token) :
  Nonterminal.disjunction.Stops (kindAhead last (token :: rest))
  := by
  change Nonterminal.disjunction.Stops token.kind
  rw [h]
  apply hs

theorem isCloser_rightParen : IsCloser .rightParen := ⟨by decide, by decide, id⟩

theorem isCloser_rightBracket : IsCloser .rightBracket := ⟨by decide, by decide, id⟩

theorem isCloser_rightBrace : IsCloser .rightBrace := ⟨by decide, by decide, id⟩

section

variable {α : Type} {item : Nat → Parser α} {x : α} {xs : List α} {ks ls : List TokenKind}

variable (limit last item) in
/-- The parser reads `x` from tokens of the kinds `ks` before a symbol that extends no
expression, and needs what `d` counts. -/
def CompleteItem (x : α) (d : Descent) (ks : List TokenKind) : Prop :=
  ∀ fuel depth read rest, read.map Token.kind = ks →
    Nonterminal.disjunction.Stops (kindAhead last rest) →
    depth ≤ limit → limit ≤ fuel + depth →
    (item fuel).Needs limit ⟨⟨read ++ rest, last⟩, depth⟩ (depth + d.deepest) x
      ⟨⟨rest, last⟩, depth⟩

variable (limit last item) in
/-- Items are read from tokens of the kinds `ks` up to the symbol that closes them, and need
what `d` counts. -/
def CompleteItems (xs : List α) (d : Descent) (ks : List TokenKind) : Prop :=
  ∀ close fault fuel depth read rest ahead (token : Token), IsCloser close →
    token.kind = .symbol close → read.map Token.kind = ks →
    depth ≤ limit → limit ≤ fuel + depth → read.length < ahead.length →
    (items (item fuel) close fault ahead).Needs limit ⟨⟨read ++ token :: rest, last⟩, depth⟩
      (depth + d.deepest) xs ⟨⟨rest, last⟩, depth⟩

variable (limit last item) in
/-- Items with commas before them are read behind every other item. -/
def CompleteMore (xs : List α) (d : Descent) (ks : List TokenKind) : Prop :=
  ∀ x a ks', CompleteItem limit last item x (Descent.nested a) ks' →
    CompleteItems limit last item (x :: xs) (a.nested ++ d) (ks' ++ ks)

variable (limit last item) in
/-- A sequence is read from tokens of the kinds `ks` up to the symbol that closes it, and needs
what `d` counts. -/
def CompleteSequence (xs : List α) (d : Descent) (ks : List TokenKind) : Prop :=
  ∀ close fault fuel depth read rest (token : Token), IsCloser close →
    token.kind = .symbol close → read.map Token.kind = ks →
    depth ≤ limit → limit ≤ fuel + depth →
    (sequence (item fuel) close fault).Needs limit ⟨⟨read ++ token :: rest, last⟩, depth⟩
      (depth + d.deepest) xs ⟨⟨rest, last⟩, depth⟩

theorem CompleteMore.nil :
  CompleteMore limit last item [] .flat []
  := by
  intro x a ks' hx close fault fuel depth read rest ahead token hclose htoken hread hdepth hfuel
    hahead
  rw [List.append_nil] at hread
  cases ahead with
  | nil => cases hahead
  | cons _ ahead =>
    have hitem := hx fuel depth read (token :: rest) hread
      (stops_before htoken hclose.stops rest) hdepth hfuel
    rw [Descent.append_flat]
    refine (hitem.bind (b := [x]) fun hneed => ?_).congr (by rw [Nat.max_self])
    apply needs_bind_eat_of_ne
    · intro h
      apply hclose.ne_comma (TokenKind.symbol.inj (htoken.symm.trans h))
    · apply needs_bind_eat htoken
      exact .of_yields (yields_pure.mpr ⟨rfl, rfl⟩) hneed

theorem CompleteMore.cons (hx : CompleteItem limit last item x a.nested ks)
    (hxs : CompleteMore limit last item xs b ls) :
  CompleteMore limit last item (x :: xs) (a.nested ++ b) (.symbol .comma :: ks ++ ls)
  := by
  intro y c ks' hy close fault fuel depth read rest ahead token hclose htoken hread hdepth hfuel
    hahead
  obtain ⟨first, others, rfl, hfirst, hothers⟩ := List.map_eq_append_iff.mp hread
  obtain ⟨comma, others, rfl, hcomma, hothers⟩ := List.map_eq_cons_iff.mp hothers
  cases ahead with
  | nil => cases hahead
  | cons _ ahead =>
    rw [List.length_append, List.length_cons, List.length_cons] at hahead
    rw [List.append_assoc]
    have hitem := hy fuel depth first (comma :: (others ++ token :: rest)) hfirst
      (stops_before hcomma (by decide) _) hdepth hfuel
    have hrest := hxs x a ks hx close fault fuel depth others rest ahead token hclose htoken hothers
      hdepth hfuel (by omega)
    refine (hitem.bind (l := depth + (a.nested ++ b).deepest) fun _ => ?_).congr ?_
    · exact needs_bind_eat hcomma hrest.map
    · simp only [Descent.deepest_append, Descent.kept_nested]
      omega

theorem CompleteSequence.nil :
  CompleteSequence limit last item [] .flat []
  := by
  intro close fault fuel depth read rest token hclose htoken hread hdepth hfuel
  obtain rfl := List.map_eq_nil_iff.mp hread
  apply needs_bind_eat htoken
  exact .of_yields (yields_pure.mpr ⟨rfl, rfl⟩) hdepth

/-- Items that do not begin like what closes them are a sequence. -/
theorem CompleteSequence.cons (hx : CompleteItem limit last item x a.nested ks)
    (hxs : CompleteMore limit last item xs b ls)
    (hfirst : ∃ k rest, ks = k :: rest ∧ ∀ close, IsCloser close → k ≠ .symbol close) :
  CompleteSequence limit last item (x :: xs) (a.nested ++ b) (ks ++ ls)
  := by
  intro close fault fuel depth read rest token hclose htoken hread hdepth hfuel
  have hitems := hxs x a ks hx close fault fuel depth read rest (read ++ token :: rest) token hclose
    htoken hread hdepth hfuel (by simp)
  obtain ⟨k, ks, rfl, hk⟩ := hfirst
  obtain ⟨token', read, rfl, htoken', -⟩ := List.map_eq_cons_iff.mp hread
  apply needs_bind_eat_of_ne
  · intro h
    apply hk close hclose (htoken'.symm.trans h)
  · apply needs_bind_of_eq rfl
    apply hitems

end

/-! ### Operands -/

/-- Tokens in front of which every expression ends are no words and no amounts. -/
theorem symbol_or_eof_of_stops {n : Nonterminal} {k : TokenKind} (h : n.Stops k) :
  (∃ s, k = .symbol s) ∨ k = .eof
  := by
  cases k
  case symbol s => exact .inl ⟨s, rfl⟩
  case eof => exact .inr rfl
  all_goals cases h

variable {fuel : Nat} {e : Expr} {ks : List TokenKind}

variable (limit last) in
/-- Expressions are read as items. -/
abbrev CompleteExpressions (es : List Expr) (d : Descent) (ks : List TokenKind) : Prop :=
  CompleteSequence limit last (fun fuel => level fuel .expression) es d ks

variable (limit last) in
/-- Entries of objects are read as items. -/
abbrev CompleteEntries (entries : List (String × Expr)) (d : Descent) (ks : List TokenKind) :
    Prop :=
  CompleteSequence limit last (fun fuel => entry (level fuel .expression)) entries d ks

theorem completeItem_expression (h : CompleteTree limit last .disjunction e d ks) :
  CompleteItem limit last (fun fuel => level fuel .expression) e d.nested ks
  := by
  intro fuel depth read rest hread hstops hdepth hfuel
  exact h.level (l := .expression) depth hread hstops hfuel

theorem completeItem_entry {k : TokenKind} {key : String} (hkey : KeyToken k key)
    (h : CompleteTree limit last .disjunction e d ks) :
  CompleteItem limit last (fun fuel => entry (level fuel .expression)) (key, e) d.nested
    (k :: .symbol .colon :: ks)
  := by
  intro fuel depth read rest hread hstops hdepth hfuel
  obtain ⟨⟨kind, _⟩, behind, rfl, htoken, hbehind⟩ := List.map_eq_cons_iff.mp hread
  obtain ⟨colon, value, rfl, hcolon, hvalue⟩ := List.map_eq_cons_iff.mp hbehind
  obtain rfl : kind = k := htoken
  have hread := completeItem_expression h fuel depth value rest hvalue hstops hdepth hfuel
  have hcolon' := needs_bind_eat (f := fun found => if found = true then do
      let value ← level fuel .expression
      return (key, value)
    else fail (.noColon key)) hcolon hread.map
  apply needs_bind_of_eq rfl
  cases hkey with
  | ident name => exact needs_bind_of_eq rfl hcolon'
  | str name => exact needs_bind_of_eq rfl hcolon'

/-- An expression begins with no symbol that closes a sequence. -/
theorem exists_head_of_derives (h : DerivesTree e ks) :
  ∃ k rest, ks = k :: rest ∧ ∀ close, IsCloser close → k ≠ .symbol close
  := by
  obtain ⟨k, rest, rfl, hk⟩ := h.tree_head
  use k, rest, rfl
  rintro close hclose rfl
  apply hclose.not_begins hk

variable (depth) in
/-- A call is read from its opening parenthesis on. -/
theorem needs_call {args : List Expr} {name : String} {read : List Token}
    {opening closing : Token} (hargs : CompleteExpressions limit last args d ks)
    (hdepth : depth ≤ limit) (hfuel : limit ≤ fuel + depth)
    (hopening : opening.kind = .symbol .leftParen) (hread : read.map Token.kind = ks)
    (hclosing : closing.kind = .symbol .rightParen) (rest : List Token) :
  Needs (call (level fuel .expression) name) limit
    ⟨⟨opening :: (read ++ closing :: rest), last⟩, depth⟩ (depth + d.deepest) (.call name args)
    ⟨⟨rest, last⟩, depth⟩
  := by
  apply needs_bind_eat hopening
  have h := hargs .rightParen (.openArguments name) fuel depth read rest closing
    isCloser_rightParen hclosing hread hdepth hfuel
  exact h.map

/-- Amounts are the further parts of a duration before a token that is no number. -/
theorem durationParts_of_amounts {parts : List (Int64 × DurationUnit)} {read rest : List Token}
    {ks : List TokenKind} (h : Amounts parts ks) (hread : read.map Token.kind = ks)
    (hint : ∀ n, kindAhead last rest ≠ .int n) (hfloat : ∀ x, kindAhead last rest ≠ .float x) :
  durationParts (read ++ rest) = .ok (parts, rest)
  := by
  induction h generalizing read with
  | nil =>
    obtain rfl := List.map_eq_nil_iff.mp hread
    match rest with
    | [] => rfl
    | [_] => rfl
    | ⟨kind, _, _, _, _⟩ :: u :: rest =>
      cases kind
      case int n => cases hint n rfl
      case float x => cases hfloat x rfl
      all_goals rfl
  | @cons n word unit parts ks hunit hparts ih =>
    obtain ⟨amount, behind, rfl, hamount, hbehind⟩ := List.map_eq_cons_iff.mp hread
    obtain ⟨word', behind', rfl, rfl, hbehind'⟩ := List.map_eq_cons_iff.mp hbehind
    simp only [List.cons_append, durationParts, hamount, hunit, ih hbehind']
    rfl

/-- Before a token in front of which every expression ends no words count a duration. -/
theorem yields_direction?_none {rest : List Token}
    (hstops : Nonterminal.operand.Stops (kindAhead last rest)) :
  Yields direction? limit ⟨⟨rest, last⟩, depth⟩ none ⟨⟨rest, last⟩, depth⟩
  := by
  have hword : ∀ word, ¬(kindAhead last rest).isWord word := by
    intro word
    obtain ⟨s, hs⟩ | hs := symbol_or_eof_of_stops hstops
    · rw [hs]
      simp [TokenKind.isWord]
    · rw [hs]
      simp [TokenKind.isWord]
  apply yields_bind_current.mpr
  apply yields_ite.mpr
  right
  use hword "ago"
  apply yields_ite.mpr
  right
  use hword "from"
  exact yields_pure.mpr ⟨rfl, rfl⟩

/-- A token is one word only. -/
theorem isWord_unique {k : TokenKind} {word word' : String} (h : k.isWord word)
    (h' : k.isWord word') :
  word.toList.map Char.toLower = word'.toList.map Char.toLower
  := by
  cases k
  case ident name => exact (of_decide_eq_true h).symm.trans (of_decide_eq_true h')
  all_goals cases h

/-- The words that count a duration from the present are read. -/
theorem yields_direction?_some {direction : Direction} {read : List Token}
    {ks : List TokenKind} (h : Heading direction ks) (hread : read.map Token.kind = ks)
    (rest : List Token) :
  Yields direction? limit ⟨⟨read ++ rest, last⟩, depth⟩ (some direction)
    ⟨⟨rest, last⟩, depth⟩
  := by
  apply yields_bind_current.mpr
  cases h with
  | ago hago =>
    obtain ⟨token, behind, rfl, rfl, hbehind⟩ := List.map_eq_cons_iff.mp hread
    obtain rfl := List.map_eq_nil_iff.mp hbehind
    apply yields_ite.mpr
    left
    use hago
    apply yields_bind_advance.mpr
    exact yields_pure.mpr ⟨rfl, rfl⟩
  | fromNow hfrom hnow =>
    obtain ⟨token, behind, rfl, rfl, hbehind⟩ := List.map_eq_cons_iff.mp hread
    obtain ⟨token', behind', rfl, rfl, hbehind'⟩ := List.map_eq_cons_iff.mp hbehind
    obtain rfl := List.map_eq_nil_iff.mp hbehind'
    apply yields_ite.mpr
    right
    constructor
    · intro hago
      cases isWord_unique hfrom hago
    · apply yields_ite.mpr
      left
      use hfrom
      apply yields_bind_advance.mpr
      apply yields_bind_current.mpr
      apply yields_ite.mpr
      left
      use hnow
      apply yields_bind_advance.mpr
      exact yields_pure.mpr ⟨rfl, rfl⟩

/-- The tokens of a duration are read up to the words that count it from the present. -/
theorem yields_duration {n : Int64} {unit : DurationUnit} {parts : List (Int64 × DurationUnit)}
    {direction : Option Direction} {word : Token} {read rest : List Token} {t : ParserState}
    (hparts : durationParts read = .ok (parts, rest))
    (hdirection : Yields direction? limit ⟨⟨rest, last⟩, depth⟩ direction t) :
  Yields (duration n unit) limit ⟨⟨word :: read, last⟩, depth⟩
    (match direction with
      | some direction => .relative (.duration ((n, unit) :: parts)) direction
      | none => .duration ((n, unit) :: parts))
    t
  := by
  apply yields_bind_advance.mpr
  apply yields_bind_get.mpr
  simp only [ParserState.advance, Cursor.advance, List.tail_cons, hparts]
  apply yields_bind_set.mpr
  apply yields_bind.mpr
  use direction, t, hdirection
  cases direction with
  | none => exact yields_pure.mpr ⟨rfl, rfl⟩
  | some direction => exact yields_pure.mpr ⟨rfl, rfl⟩

theorem CompleteTree.terminal {k : TokenKind} (h : Terminal k e) :
  CompleteTree limit last .operand e .flat [k]
  := by
  intro fuel depth read rest hread hstops hdepth hfuel
  apply Needs.of_yields _ hdepth
  obtain ⟨⟨kind, _⟩, behind, rfl, htoken, hbehind⟩ := List.map_eq_cons_iff.mp hread
  obtain rfl := List.map_eq_nil_iff.mp hbehind
  obtain rfl : kind = k := htoken
  have hunit : (kindAhead last rest).unit? = none := by
    obtain ⟨s, hs⟩ | hs := symbol_or_eof_of_stops hstops
    · rw [hs]
      rfl
    · rw [hs]
      rfl
  apply yields_bind_current.mpr
  cases h with
  | int n =>
    apply yields_bind_advance.mpr
    apply yields_bind_current.mpr
    rw [kindAhead] at hunit
    simp only [ParserState.advance, Cursor.advance, Cursor.current, List.singleton_append,
      List.tail_cons, hunit]
    exact yields_pure.mpr ⟨rfl, rfl⟩
  | float x =>
    apply yields_bind_get.mpr
    apply yields_ite.mpr
    right
    constructor
    · change ¬((kindAhead last rest).unit?).isSome
      rw [hunit]
      simp
    · apply yields_bind_advance.mpr
      exact yields_pure.mpr ⟨rfl, rfl⟩
  | _ =>
    apply yields_bind_advance.mpr
    exact yields_pure.mpr ⟨rfl, rfl⟩

/-- An integer and the word of a unit behind it begin a duration. -/
theorem yields_primary_duration {expression : Parser Expr} {part : Int64 × DurationUnit}
    {parts : List (Int64 × DurationUnit)} {direction : Option Direction} {read rest : List Token}
    {t : ParserState} (hparts : Amounts (part :: parts) ks) (hread : read.map Token.kind = ks)
    (hint : ∀ n, kindAhead last rest ≠ .int n) (hfloat : ∀ x, kindAhead last rest ≠ .float x)
    (hdirection : Yields direction? limit ⟨⟨rest, last⟩, depth⟩ direction t) :
  (primary expression).Yields limit ⟨⟨read ++ rest, last⟩, depth⟩
    (match direction with
      | some direction => .relative (.duration (part :: parts)) direction
      | none => .duration (part :: parts))
    t
  := by
  cases hparts with
  | @cons n word unit parts ks hunit hparts =>
    obtain ⟨⟨kind, _⟩, behind, rfl, hamount, hbehind⟩ := List.map_eq_cons_iff.mp hread
    obtain ⟨word', behind', rfl, rfl, hbehind'⟩ := List.map_eq_cons_iff.mp hbehind
    obtain rfl : kind = .int n := hamount
    apply yields_bind_current.mpr
    apply yields_bind_advance.mpr
    apply yields_bind_current.mpr
    simp only [ParserState.advance, Cursor.advance, Cursor.current, List.cons_append,
      List.tail_cons, List.headD_cons, hunit]
    apply yields_duration _ hdirection
    apply durationParts_of_amounts hparts hbehind' hint hfloat

theorem CompleteTree.duration {part : Int64 × DurationUnit}
    {parts : List (Int64 × DurationUnit)} (hparts : Amounts (part :: parts) ks) :
  CompleteTree limit last .operand (.duration (part :: parts)) .flat ks
  := by
  intro fuel depth read rest hread hstops hdepth hfuel
  apply Needs.of_yields _ hdepth
  apply yields_primary_duration hparts hread _ _ (yields_direction?_none hstops)
  · rintro n hn
    rw [hn] at hstops
    cases hstops
  · rintro x hx
    rw [hx] at hstops
    cases hstops

theorem CompleteTree.relative {part : Int64 × DurationUnit}
    {parts : List (Int64 × DurationUnit)} {direction : Direction} {ls : List TokenKind}
    (hparts : Amounts (part :: parts) ks) (hdirection : Heading direction ls) :
  CompleteTree limit last .operand (.relative (.duration (part :: parts)) direction) .flat
    (ks ++ ls)
  := by
  intro fuel depth read rest hread hstops hdepth hfuel
  apply Needs.of_yields _ hdepth
  obtain ⟨read₁, read₂, rfl, hread₁, hread₂⟩ := List.map_eq_append_iff.mp hread
  have hword : ∃ word, (kindAhead last (read₂ ++ rest)).isWord word := by
    cases hdirection with
    | ago hago =>
      obtain ⟨token, behind, rfl, rfl, -⟩ := List.map_eq_cons_iff.mp hread₂
      exact ⟨_, hago⟩
    | fromNow hfrom hnow =>
      obtain ⟨token, behind, rfl, rfl, -⟩ := List.map_eq_cons_iff.mp hread₂
      exact ⟨_, hfrom⟩
  obtain ⟨word, hword⟩ := hword
  have hrelative : Yields direction? limit ⟨⟨read₂ ++ rest, last⟩, depth⟩ (some direction)
      ⟨⟨rest, last⟩, depth⟩ :=
    yields_direction?_some hdirection hread₂ rest
  rw [List.append_assoc]
  apply yields_primary_duration hparts hread₁ _ _ hrelative
  · rintro n hn
    rw [hn] at hword
    cases hword
  · rintro x hx
    rw [hx] at hword
    cases hword

/-- Tokens between an opening symbol and a closing one. -/
theorem exists_enclosed {read : List Token} {k l : TokenKind}
    (hread : read.map Token.kind = k :: ks ++ [l]) :
  ∃ opening inner closing, read = opening :: (inner ++ [closing]) ∧ opening.kind = k
    ∧ inner.map Token.kind = ks ∧ closing.kind = l
  := by
  obtain ⟨opening, behind, rfl, hopening, hbehind⟩ := List.map_eq_cons_iff.mp hread
  obtain ⟨inner, others, rfl, hinner, hothers⟩ := List.map_eq_append_iff.mp hbehind
  obtain ⟨closing, behind', rfl, hclosing, hbehind'⟩ := List.map_eq_cons_iff.mp hothers
  obtain rfl := List.map_eq_nil_iff.mp hbehind'
  use opening, inner, closing

theorem CompleteTree.call {name : String} {args : List Expr}
    (hargs : CompleteExpressions limit last args d ks) :
  CompleteTree limit last .operand (.call name args) d
    (.functionName name :: .symbol .leftParen :: ks ++ [.symbol .rightParen])
  := by
  intro fuel depth read rest hread hstops hdepth hfuel
  obtain ⟨⟨kind, _⟩, behind, rfl, hname, hbehind⟩ := List.map_eq_cons_iff.mp hread
  obtain ⟨opening, inner, closing, rfl, hopening, hinner, hclosing⟩ := exists_enclosed hbehind
  obtain rfl : kind = .functionName name := hname
  rw [List.cons_append, List.cons_append, List.append_assoc]
  apply needs_bind_of_eq rfl
  apply needs_bind_of_eq rfl
  exact needs_call depth hargs hdepth hfuel hopening hinner hclosing rest

theorem CompleteTree.list {es : List Expr} (hitems : CompleteExpressions limit last es d ks) :
  CompleteTree limit last .operand (.list es) d
    (.symbol .leftBracket :: ks ++ [.symbol .rightBracket])
  := by
  intro fuel depth read rest hread hstops hdepth hfuel
  obtain ⟨⟨kind, _⟩, inner, closing, rfl, hopening, hinner, hclosing⟩ := exists_enclosed hread
  obtain rfl : kind = .symbol .leftBracket := hopening
  rw [List.cons_append, List.append_assoc]
  apply needs_bind_of_eq rfl
  apply needs_bind_of_eq rfl
  have h := hitems .rightBracket (.openEnclosure .list) fuel depth inner rest closing
    isCloser_rightBracket hclosing hinner hdepth hfuel
  exact h.map

theorem CompleteTree.object {entries : List (String × Expr)}
    (hentries : CompleteEntries limit last entries d ks) :
  CompleteTree limit last .operand (.object entries) d
    (.symbol .leftBrace :: ks ++ [.symbol .rightBrace])
  := by
  intro fuel depth read rest hread hstops hdepth hfuel
  obtain ⟨⟨kind, _⟩, inner, closing, rfl, hopening, hinner, hclosing⟩ := exists_enclosed hread
  obtain rfl : kind = .symbol .leftBrace := hopening
  rw [List.cons_append, List.append_assoc]
  apply needs_bind_of_eq rfl
  apply needs_bind_of_eq rfl
  have h := hentries .rightBrace (.openEnclosure .object) fuel depth inner rest closing
    isCloser_rightBrace hclosing hinner hdepth hfuel
  exact h.map

theorem CompleteTree.group (he : CompleteTree limit last .disjunction e d ks) :
  CompleteTree limit last .operand e d.nested
    (.symbol .leftParen :: ks ++ [.symbol .rightParen])
  := by
  intro fuel depth read rest hread hstops hdepth hfuel
  obtain ⟨⟨kind, _⟩, inner, closing, rfl, hopening, hinner, hclosing⟩ := exists_enclosed hread
  obtain rfl : kind = .symbol .leftParen := hopening
  rw [List.cons_append, List.append_assoc]
  have hinside := he.level (l := .expression) depth hinner
    (stops_before hclosing (by decide) rest) hfuel
  apply needs_bind_of_eq rfl
  apply needs_bind_of_eq rfl
  refine (hinside.bind (b := e) fun hneed => ?_).congr (by rw [Nat.max_self])
  apply needs_bind_eat hclosing
  exact .of_yields (yields_pure.mpr ⟨rfl, rfl⟩) hneed

/-! ### Tails of operands -/

theorem CompleteTail.property {base : Expr} {name : String}
    (hderives : Derives (.tail .access (.property base name) e) ks)
    (htail : CompleteTail limit last .access (.property base name) e d ks) :
  CompleteTail limit last .access base e (.step 1 .flat ++ d)
    (.symbol .dot :: .ident name :: ks)
  := by
  change CompleteTail limit last .access base e _ ([.symbol .dot, .ident name] ++ ks)
  apply htail.step hderives
  · simp
  · intro fuel depth read rest hread hstops hfuel
    obtain ⟨⟨dot, _⟩, behind, rfl, hdot, hbehind⟩ := List.map_eq_cons_iff.mp hread
    obtain ⟨⟨word, _⟩, behind', rfl, hname, hbehind'⟩ := List.map_eq_cons_iff.mp hbehind
    obtain rfl := List.map_eq_nil_iff.mp hbehind'
    obtain rfl : dot = .symbol .dot := hdot
    obtain rfl : word = .ident name := hname
    have hneed : depth < depth + (Descent.step 1 .flat).deepest := Nat.lt_succ_self depth
    apply needs_bind_of_eq rfl
    apply needs_bind_deepen hneed
    intro hdepth
    apply needs_bind_of_eq rfl
    apply Needs.of_yields _ hdepth
    apply yields_bind.mpr
    use .property base name, ⟨⟨rest, last⟩, depth + 1⟩
    constructor
    · apply yields_bind_current.mpr
      apply yields_bind_advance.mpr
      exact yields_pure.mpr ⟨rfl, rfl⟩
    · exact yields_pure.mpr ⟨rfl, rfl⟩

theorem CompleteTail.qualified {base : Expr} {path name : String} {args : List Expr}
    {ls : List TokenKind} (hpath : base.path? = some path)
    (hargs : CompleteExpressions limit last args a ks)
    (hderives : Derives (.tail .access (.call (path ++ "." ++ name) args) e) ls)
    (htail : CompleteTail limit last .access (.call (path ++ "." ++ name) args) e b ls) :
  CompleteTail limit last .access base e (.step 1 a ++ b)
    (.symbol .dot :: .functionName name :: .symbol .leftParen :: ks
      ++ .symbol .rightParen :: ls)
  := by
  have hsplit : (.symbol .dot :: .functionName name :: .symbol .leftParen :: ks
      ++ .symbol .rightParen :: ls : List TokenKind)
      = (.symbol .dot :: .functionName name :: .symbol .leftParen :: ks
        ++ [.symbol .rightParen]) ++ ls := by simp
  rw [hsplit]
  apply htail.step hderives
  · simp
  · intro fuel depth read rest hread hstops hfuel
    obtain ⟨⟨dot, _⟩, behind, rfl, hdot, hbehind⟩ := List.map_eq_cons_iff.mp hread
    obtain ⟨⟨word, _⟩, behind', rfl, hname, hbehind'⟩ := List.map_eq_cons_iff.mp hbehind
    obtain ⟨opening, inner, closing, rfl, hopening, hinner, hclosing⟩ := exists_enclosed hbehind'
    obtain rfl : dot = .symbol .dot := hdot
    obtain rfl : word = .functionName name := hname
    rw [List.cons_append, List.cons_append, List.cons_append, List.append_assoc,
      Descent.deepest_step, ← Nat.add_assoc]
    have hneed : depth < depth + 1 + a.deepest := by omega
    apply needs_bind_of_eq rfl
    apply needs_bind_deepen hneed
    intro hdepth
    apply needs_bind_of_eq rfl
    refine Needs.map (g := some) ?_
    apply needs_bind_of_eq rfl
    simp only [ParserState.deepen, Cursor.advance, Cursor.current, List.tail_cons,
      List.headD_cons, hpath]
    apply needs_bind_of_eq rfl
    exact needs_call (depth + 1) hargs hdepth (by omega : limit ≤ fuel + (depth + 1)) hopening
      hinner hclosing rest

theorem CompleteTail.index {base key : Expr} {ls : List TokenKind}
    (hkey : CompleteTree limit last .disjunction key a ks)
    (hderives : Derives (.tail .access (.index base key) e) ls)
    (htail : CompleteTail limit last .access (.index base key) e b ls) :
  CompleteTail limit last .access base e (.step 1 a.nested ++ b)
    (.symbol .leftBracket :: ks ++ .symbol .rightBracket :: ls)
  := by
  have hsplit : (.symbol .leftBracket :: ks ++ .symbol .rightBracket :: ls : List TokenKind)
      = (.symbol .leftBracket :: ks ++ [.symbol .rightBracket]) ++ ls := by simp
  rw [hsplit]
  apply htail.step hderives
  · simp
  · intro fuel depth read rest hread hstops hfuel
    obtain ⟨⟨bracket, _⟩, inner, closing, rfl, hopening, hinner, hclosing⟩ :=
      exists_enclosed hread
    obtain rfl : bracket = .symbol .leftBracket := hopening
    have hinside := hkey.level (l := .expression) (depth + 1) hinner
      (stops_before hclosing (by decide) rest) (by omega : limit ≤ fuel + (depth + 1))
    rw [List.cons_append, List.append_assoc, Descent.deepest_step, ← Nat.add_assoc]
    have hneed : depth < depth + 1 + a.nested.deepest :=
      Nat.lt_of_lt_of_le (Nat.lt_succ_self depth) (Nat.le_add_right _ _)
    apply needs_bind_of_eq rfl
    apply needs_bind_deepen hneed
    intro hdepth
    apply needs_bind_of_eq rfl
    refine (hinside.bind (b := some (Expr.index base key)) fun hle => ?_).congr
      (by rw [Nat.max_self])
    apply needs_bind_eat hclosing
    exact .of_yields (yields_pure.mpr ⟨rfl, rfl⟩) hle

/-! ### Prefix operators -/

theorem CompleteTree.not (he : CompleteTree limit last .negation e d ks) :
  CompleteTree limit last .negation (.not e) d.nested (.symbol .wordNot :: ks)
  := by
  intro fuel depth read rest hread hstops hdepth hfuel
  obtain ⟨token, behind, rfl, htoken, hbehind⟩ := List.map_eq_cons_iff.mp hread
  apply needs_bind_of_eq rfl
  apply needs_ite_of_pos htoken
  apply needs_bind_of_eq rfl
  exact (he.level (l := .negation) depth hbehind hstops hfuel).map

theorem CompleteTree.notNegated (hderives : Derives (.tree .comparison e) ks)
    (he : CompleteTree limit last .comparison e d ks) :
  CompleteTree limit last .negation e d.closed ks
  := by
  intro fuel depth read rest hread hstops hdepth hfuel
  obtain ⟨k, ls, rfl, hk⟩ := hderives.tree_head
  have hcomparison := he fuel depth read rest hread (hstops.mono (by decide)) hdepth hfuel
  obtain ⟨token, behind, rfl, htoken, hbehind⟩ := List.map_eq_cons_iff.mp hread
  have hnot : token.kind ≠ .symbol .wordNot := by
    intro hnot
    obtain rfl : k = .symbol .wordNot := htoken.symm.trans hnot
    cases (by decide : ¬7 ≤ 6) hk
  apply needs_bind_of_eq rfl
  apply needs_ite_of_neg hnot
  apply hcomparison

theorem CompleteTree.signed {op : UnaryOp} (he : CompleteTree limit last .sign e d ks) :
  CompleteTree limit last .sign (.unary op e) d.nested (.symbol op.mark :: ks)
  := by
  intro fuel depth read rest hread hstops hdepth hfuel
  obtain ⟨⟨kind, _⟩, behind, rfl, htoken, hbehind⟩ := List.map_eq_cons_iff.mp hread
  obtain rfl : kind = .symbol op.mark := htoken
  have hop : UnaryOp.ofSymbol? op.mark = some op := UnaryOp.ofSymbol?_eq_some_iff.mpr rfl
  apply needs_bind_of_eq rfl
  simp only [Cursor.current, List.cons_append, List.headD_cons, hop]
  apply needs_bind_of_eq rfl
  exact (he.level (l := .sign) depth hbehind hstops hfuel).map

theorem CompleteTree.unsigned (hderives : Derives (.tree .access e) ks)
    (he : CompleteTree limit last .access e d ks) :
  CompleteTree limit last .sign e d.closed ks
  := by
  intro fuel depth read rest hread hstops hdepth hfuel
  obtain ⟨k, ls, rfl, hk⟩ := hderives.tree_head
  have haccess := he fuel depth read rest hread (hstops.mono (by decide)) hdepth hfuel
  obtain ⟨⟨kind, _⟩, behind, rfl, htoken, hbehind⟩ := List.map_eq_cons_iff.mp hread
  obtain rfl : kind = k := htoken
  apply needs_bind_of_eq rfl
  cases kind
  case symbol s =>
    cases s
    case minus => cases (by decide : ¬2 ≤ 1) hk
    case bang => cases (by decide : ¬2 ≤ 1) hk
    all_goals exact haccess
  all_goals exact haccess

/-! ### Derivations -/

variable (limit last) in
/-- What is shown of a phrase: a tree, a tail or a sequence is read and needs what its descent
counts. -/
def Complete : Phrase → Descent → List TokenKind → Prop
  | .tree n e => CompleteTree limit last n e
  | .tail n left e => CompleteTail limit last n left e
  | .items es => CompleteExpressions limit last es
  | .moreItems es => CompleteMore limit last (fun fuel => level fuel .expression) es
  | .entries entries => CompleteEntries limit last entries
  | .moreEntries entries =>
    CompleteMore limit last (fun fuel => entry (level fuel .expression)) entries

/-- Everything that the grammar derives is read. -/
theorem complete_of_descends {p : Phrase} (h : Descends p d ks) :
  Complete limit last p d ks
  := by
  induction h with
  | chain hn hleft htail ihleft ihtail =>
    exact CompleteTree.chain hn ihleft htail.derives ihtail
  | nil n e => exact CompleteTail.nil n e
  | binary hn hop hright htail ihright ihtail =>
    exact CompleteTail.binary hn hop ihright htail.derives ihtail
  | property htail ih => exact CompleteTail.property htail.derives ih
  | qualified hpath hargs htail ihargs ihtail =>
    exact CompleteTail.qualified hpath ihargs htail.derives ihtail
  | index hkey htail ihkey ihtail => exact CompleteTail.index ihkey htail.derives ihtail
  | not he ih => exact CompleteTree.not ih
  | notNegated he ih => exact CompleteTree.notNegated he.derives ih
  | signed op he ih => exact CompleteTree.signed ih
  | unsigned he ih => exact CompleteTree.unsigned he.derives ih
  | terminal h => exact CompleteTree.terminal h
  | duration hparts => exact CompleteTree.duration hparts
  | relative hparts hdirection => exact CompleteTree.relative hparts hdirection
  | call name hargs ih => exact CompleteTree.call ih
  | list hitems ih => exact CompleteTree.list ih
  | object hentries ih => exact CompleteTree.object ih
  | group he ih => exact CompleteTree.group ih
  | noItems => exact CompleteSequence.nil
  | someItems he hes ihe ihes =>
    exact CompleteSequence.cons (completeItem_expression ihe) ihes
      (exists_head_of_derives he.derives)
  | noMoreItems => exact CompleteMore.nil
  | oneMoreItem he hes ihe ihes => exact CompleteMore.cons (completeItem_expression ihe) ihes
  | noEntries => exact CompleteSequence.nil
  | someEntries hkey he hentries ihe ihentries =>
    apply CompleteSequence.cons (completeItem_entry hkey ihe) ihentries
    cases hkey <;> exact ⟨_, _, rfl, by simp⟩
  | noMoreEntries => exact CompleteMore.nil
  | oneMoreEntry hkey he hentries ihe ihentries =>
    exact CompleteMore.cons (completeItem_entry hkey ihe) ihentries

end Parser

end RuleLang
