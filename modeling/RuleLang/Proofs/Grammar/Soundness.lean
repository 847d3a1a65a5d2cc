import RuleLang.Proofs.Grammar.Logic
import RuleLang.Proofs.Grammar.Rules

/-!
# What readers read is in the grammar

Every reader is walked through once, in an arbitrary logic: it goes over tokens which the grammar
derives what it reads from, and gives back what it has counted of the depth, unless it is the
step of a chain.  The readers of all levels read what their nonterminals derive.
-/

namespace RuleLang

/-! ### Symbols of operators -/

@[simp]
theorem CompareOp.ofSymbol?_eq_some_iff
    {s : Symbol} {op : CompareOp} :
  ofSymbol? s = some op ↔ s = op.mark
  := by
  cases s <;> cases op <;> decide

@[simp]
theorem ArithmeticOp.ofAdditive?_eq_some_iff
    {s : Symbol} {op : ArithmeticOp} :
  ofAdditive? s = some op ↔ s = op.mark ∧ (op = .add ∨ op = .subtract)
  := by
  cases s <;> cases op <;> decide

@[simp]
theorem ArithmeticOp.ofMultiplicative?_eq_some_iff
    {s : Symbol} {op : ArithmeticOp} :
  ofMultiplicative? s = some op ↔ s = op.mark ∧ (op = .multiply ∨ op = .divide ∨ op = .modulo)
  := by
  cases s <;> cases op <;> decide

@[simp]
theorem UnaryOp.ofSymbol?_eq_some_iff
    {s : Symbol} {op : UnaryOp} :
  ofSymbol? s = some op ↔ s = op.mark
  := by
  cases s <;> cases op <;> decide

@[simp]
theorem MembershipOp.ofSymbol?_eq_some_iff
    {s : Symbol} {op : MembershipOp} :
  ofSymbol? s = some op ↔ s = op.mark
  := by
  cases s <;> cases op <;> decide

namespace Parser

variable {limit : Nat} {tokens : List Token} {m : Type → Type} [Monad m] [MonadReaderOf Nat m]
  [MonadStateOf ParserState m] [MonadExceptOf ParseError m] {L : Logic limit tokens m} {α : Type}

/-! ### Chains -/

/-- What a step from `left` on a level is: the next tree and the tokens that lead to it, or
no tree and no tokens. -/
def Extends (n : Nonterminal) (left : Expr) : Option Expr → List TokenKind → Prop
  | none, ks => ks = []
  | some next, ks =>
    ∀ e ls, Derives (.tail n next e) ls → Derives (.tail n left e) (ks ++ ls)

section

variable {first operand : m Expr} {first' operand' : Parser Expr}
  {step : Expr → m (Option Expr)} {step' : Expr → Parser (Option Expr)} {n o : Nonterminal}

theorem Logic.reads_steps
    (hstep : ∀ left, L.Reads LE.le (step left) (step' left) (Extends n left))
    (ahead : List Token) (left : Expr) :
  L.Reads LE.le (steps step ahead left) (steps step' ahead left) fun e ks =>
    Derives (.tail n left e) ks
  := by
  induction ahead generalizing left with
  | nil => apply Logic.reads_pure (.nil n left)
  | cons _ ahead ih =>
    apply (hstep left).bind
    intro next ks hks
    cases next with
    | none =>
      obtain rfl : ks = [] := hks
      apply Logic.reads_pure (.nil n left)
    | some next =>
      apply (ih next).mono
      intro e ls hls
      apply hks e ls hls

/-- Whatever the steps have counted of the depth, a chain gives it back. -/
theorem Logic.reads_chain (hn : n.operand? = some o)
    (hfirst : L.Reads Eq first first' fun e ks => Derives (.tree o e) ks)
    (hstep : ∀ left, L.Reads LE.le (step left) (step' left) (Extends n left)) :
  L.Reads Eq (chain first step) (chain first' step') fun e ks => Derives (.tree n e) ks
  := by
  intro k s hs hk
  apply (hfirst k s hs hk).bind
  rintro left t ht ⟨hdepth, ks, hks, hleft⟩
  apply (Logic.holds_get ht).bind
  rintro _ _ - ⟨rfl, rfl⟩
  apply (Logic.reads_steps hstep _ left _ _ ht rfl).bind
  rintro e u hu ⟨-, ls, hls, htail⟩
  apply (Logic.holds_modify (hu.withDepth ht.depth_le)).bind
  rintro _ _ hend rfl
  exact Logic.holds_pure hend ⟨hdepth, ks ++ ls, hks.trans hls, .chain hn hleft htail⟩

theorem Logic.reads_binaryStep {operator? : Symbol → Option (Expr → Expr → Expr)}
    (hn : n.operand? = some o)
    (hop : ∀ s combine, operator? s = some combine → Connective n [s] combine)
    (hoperand : L.Reads Eq operand operand' fun e ks => Derives (.tree o e) ks) (left : Expr) :
  L.Reads LE.le (binaryStep operator? operand left) (binaryStep operator? operand' left)
    (Extends n left)
  := by
  apply Logic.reads_current
  intro token
  cases token.kind
  case symbol s =>
    dsimp only
    cases hs : operator? s with
    | none => exact Logic.readsFrom_pure rfl
    | some combine =>
      apply Logic.readsFrom_deepen
      apply Logic.readsFrom_advance (by rintro ⟨⟩)
      apply hoperand.le.bind
      intro right ks hright
      apply Logic.reads_pure
      intro e ls htail
      have h := Derives.binary hn (hop s combine hs) hright htail
      simpa using h
  all_goals exact Logic.readsFrom_pure rfl

/-- A negated test of membership goes over two symbols. -/
theorem Logic.reads_membershipStep
    (hoperand : L.Reads Eq operand operand' fun e ks => Derives (.tree .sum e) ks)
    (left : Expr) :
  L.Reads LE.le (membershipStep operand left) (membershipStep operand' left)
    (Extends .membership left)
  := by
  intro k s hs hk
  apply (Logic.holds_get hs).bind
  rintro _ s - ⟨rfl, rfl⟩
  apply Logic.Holds.ite
  · rintro ⟨hnot, hin⟩
    -- The kind of the second symbol is known before the first one has been gone over.
    have hrest : L.ReadsFrom LE.le (.symbol .wordIn)
        (do deepen; advance; return some (.not (.membership .isIn left (← operand))))
        (do deepen; advance; return some (.not (.membership .isIn left (← operand'))))
        fun next ls => Extends .membership left next (.symbol .wordNot :: ls) := by
      apply Logic.readsFrom_deepen
      apply Logic.readsFrom_advance (by rintro ⟨⟩)
      apply hoperand.le.bind
      intro right ks hright
      apply Logic.reads_pure
      intro e ls htail
      have h := Derives.binary rfl .notIn hright htail
      simpa using h
    apply (Logic.holds_deepen hs).bind
    rintro _ _ hdeeper rfl
    apply (Logic.holds_advance hdeeper).bind
    rintro _ _ hbehind rfl
    apply (hrest _ hbehind hin).mono
    rintro next u ⟨hdepth, ks, hks, hnext⟩
    have hread : s.cursor.Consumes [.symbol .wordNot] s.advance.cursor := by
      rw [← hnot]
      apply hs.consumes_advance
      rw [ParserState.kind, hnot]
      rintro ⟨⟩
    exact ⟨Nat.le_of_succ_le hdepth, _, hread.trans hks, hnext⟩
  · intro _
    have hop : ∀ s combine, (MembershipOp.ofSymbol? s).map Expr.membership = some combine →
        Connective .membership [s] combine := by
      intro s combine hs
      obtain ⟨op, hop, rfl⟩ := Option.map_eq_some_iff.mp hs
      obtain rfl := MembershipOp.ofSymbol?_eq_some_iff.mp hop
      apply Connective.member
    apply Logic.reads_binaryStep rfl hop hoperand left k _ hs hk

end

/-! ### Sequences -/

section

variable {item : m α} {item' : Parser α} {D : α → List TokenKind → Prop}

theorem Logic.reads_items (hitem : L.Reads Eq item item' D) (close : Symbol)
    (fault : TokenKind → ParseFault) (ahead : List Token) :
  L.Reads Eq (items item close fault ahead) (items item' close fault ahead) fun as ks =>
    ∃ a rest ks₁ ks₂, as = a :: rest ∧ D a ks₁ ∧ Further D rest ks₂
      ∧ ks = ks₁ ++ ks₂ ++ [.symbol close]
  := by
  induction ahead with
  | nil =>
    apply hitem.bind
    intro a ks ha
    apply Logic.reads_fail
  | cons _ ahead ih =>
    apply hitem.bind
    intro a ks ha
    apply Logic.reads_eat
    · apply ih.bind
      rintro as ls ⟨a', rest, ls₁, ls₂, rfl, ha', hrest, rfl⟩
      apply Logic.reads_pure
      use a, a' :: rest, ks, .symbol .comma :: ls₁ ++ ls₂, rfl, ha, .cons ha' hrest
      simp
    · apply Logic.reads_eat
      · apply Logic.reads_pure
        use a, [], ks, [], rfl, ha, .nil
        simp
      · apply Logic.reads_fail

theorem Logic.reads_sequence (hitem : L.Reads Eq item item' D) (close : Symbol)
    (fault : TokenKind → ParseFault) :
  L.Reads Eq (sequence item close fault) (sequence item' close fault) fun as ks =>
    ∃ ls, Separated D as ls ∧ ks = ls ++ [.symbol close]
  := by
  apply Logic.reads_eat
  · apply Logic.reads_pure
    use [], .nil
    rfl
  · intro k
    apply Logic.readsFrom_get
    intro s _
    apply (Logic.reads_items hitem close fault _ k).mono
    rintro as ks ⟨a, rest, ks₁, ks₂, rfl, ha, hrest, rfl⟩
    use ks₁ ++ ks₂, .cons ha hrest

end

/-! ### Durations -/

/-- The further parts of a duration are amounts with units in front of what is left. -/
theorem amounts_of_durationParts {tokens rest : List Token}
    {parts : List (Int64 × DurationUnit)} (h : durationParts tokens = .ok (parts, rest)) :
  ∃ read, tokens = read ++ rest ∧ Amounts parts (read.map Token.kind)
  := by
  fun_induction durationParts tokens generalizing parts with
  | case1 t u tokens n unit hunit hn ih =>
    obtain ⟨⟨parts', rest'⟩, hparts, h⟩ := Except.bind_eq_ok_iff.mp h
    obtain ⟨rfl, rfl⟩ := Prod.mk.inj (Except.ok.inj h)
    obtain ⟨read, htokens, hread⟩ := ih hparts
    use t :: u :: read
    constructor
    · rw [htokens]
      rfl
    · rw [List.map_cons, List.map_cons, hn]
      exact .cons hunit hread
  | case2 => cases h
  | case3 =>
    obtain ⟨rfl, rfl⟩ := Prod.mk.inj (Except.ok.inj h)
    use [], rfl, .nil
  | case4 =>
    obtain ⟨rfl, rfl⟩ := Prod.mk.inj (Except.ok.inj h)
    use [], rfl, .nil

/-- An amount that is no integer is one of the tokens ahead. -/
theorem mem_of_durationParts {tokens : List Token} {t : Token}
    (h : durationParts tokens = .error t) :
  t ∈ tokens
  := by
  fun_induction durationParts tokens with
  | case1 u v rest n hn unit hunit ih =>
    obtain h | ⟨⟨parts, rest'⟩, -, h⟩ := Except.bind_eq_error_iff.mp h
    · exact List.mem_cons_of_mem u (List.mem_cons_of_mem v (ih h))
    · cases h
  | case2 u v rest =>
    cases h
    apply List.mem_cons_self
  | case3 => cases h
  | case4 => cases h

/-- The words that count from the present, or nothing. -/
theorem Logic.reads_direction? :
  L.Reads Eq direction? direction? fun direction ks =>
    match direction with
    | none => ks = []
    | some d => Heading d ks
  := by
  apply Logic.reads_current
  intro token
  apply Logic.ReadsFrom.ite
  · intro hago
    apply Logic.readsFrom_advance (by intro h; rw [h] at hago; cases hago)
    apply Logic.reads_pure
    exact .ago hago
  · intro _
    apply Logic.ReadsFrom.ite
    · intro hfrom
      apply Logic.readsFrom_advance (by intro h; rw [h] at hfrom; cases hfrom)
      apply Logic.reads_current
      intro token'
      apply Logic.ReadsFrom.ite
      · intro hnow
        apply Logic.readsFrom_advance (by intro h; rw [h] at hnow; cases hnow)
        apply Logic.reads_pure
        exact .fromNow hfrom hnow
      · intro _
        apply Logic.readsFrom_fail
    · intro _
      exact Logic.readsFrom_pure rfl

theorem Logic.reads_duration {word : TokenKind} {unit : DurationUnit}
    (hunit : word.unit? = some unit) (amount : Int64) :
  L.ReadsFrom Eq word (duration amount unit) (duration amount unit) fun e ks =>
    ks ≠ [] ∧ Derives (.tree .operand e) (.int amount :: ks)
  := by
  apply Logic.readsFrom_advance (by rintro rfl; cases hunit)
  intro k s hs hk
  apply (Logic.holds_get hs).bind
  rintro _ s - ⟨rfl, rfl⟩
  cases hparts : durationParts s.cursor.rest with
  | error token =>
    apply Logic.holds_throw
    exact List.mem_append_left _ (hs.rest_suffix.subset (mem_of_durationParts hparts))
  | ok found =>
    obtain ⟨parts, rest⟩ := found
    obtain ⟨read, hrest, hamounts⟩ := amounts_of_durationParts hparts
    have hall : Amounts ((amount, unit) :: parts) (.int amount :: word :: read.map Token.kind) :=
      .cons hunit hamounts
    have hread : s.cursor.Consumes (read.map Token.kind) { s.cursor with rest } :=
      ⟨rfl, read, rfl, hrest⟩
    have hbehind : ParserState.Within limit tokens { s with cursor := { s.cursor with rest } } :=
      ⟨hs.depth_le, List.IsSuffix.trans ⟨read, hrest.symm⟩ hs.rest_suffix, hs.last_eq⟩
    apply (Logic.holds_set hbehind).bind
    rintro _ _ - rfl
    apply (Logic.reads_direction? _ _ hbehind rfl).bind
    rintro direction u hu ⟨hdepth, ks, hks, hheading⟩
    cases direction with
    | none =>
      obtain rfl : ks = [] := hheading
      refine Logic.holds_pure hu ⟨hdepth, _, hread.trans hks, List.cons_ne_nil _ _, ?_⟩
      rw [List.append_nil]
      exact .duration hall
    | some direction =>
      refine Logic.holds_pure hu ⟨hdepth, _, hread.trans hks, List.cons_ne_nil _ _, ?_⟩
      exact .relative hall hheading

/-! ### Operands -/

section

variable {expression : m Expr} {expression' : Parser Expr}
  (hexpression : L.Reads Eq expression expression' DerivesTree)
include hexpression

theorem Logic.reads_entry :
  L.Reads Eq (entry expression) (entry expression') (EntryOf DerivesTree)
  := by
  have hvalue {k : TokenKind} {key : String} (hkey : KeyToken k key) (hk : k ≠ .eof) :
      L.ReadsFrom Eq k
        (do advance; if ← eat .colon then return (key, ← expression) else fail (.noColon key))
        (do advance; if ← eat .colon then return (key, ← expression') else fail (.noColon key))
        (EntryOf DerivesTree) := by
    apply Logic.readsFrom_advance hk
    apply Logic.reads_eat
    · apply hexpression.bind
      intro e ks he
      apply Logic.reads_pure
      have h := EntryOf.colon hkey he
      simpa using h
    · apply Logic.reads_fail
  apply Logic.reads_current
  intro token
  cases token.kind
  case ident key => apply hvalue (.ident key) (by rintro ⟨⟩)
  case str key => apply hvalue (.str key) (by rintro ⟨⟩)
  all_goals apply Logic.readsFrom_fail

/-- A call behind the name of its function. -/
theorem Logic.reads_call (name : String) :
  L.Reads Eq (call expression name) (call expression' name) fun e ks =>
    ∃ args ls, e = .call name args ∧ Derives (.items args) ls
      ∧ ks = .symbol .leftParen :: ls ++ [.symbol .rightParen]
  := by
  apply Logic.reads_eat
  · apply (Logic.reads_sequence hexpression .rightParen _).bind
    rintro args ks ⟨ls, hargs, rfl⟩
    apply Logic.reads_pure
    use args, ls, rfl, .items hargs
    simp
  · apply Logic.reads_fail

theorem Logic.reads_primary :
  L.Reads Eq (primary expression) (primary expression') fun e ks =>
    Derives (.tree .operand e) ks
  := by
  have hterminal {k : TokenKind} {e : Expr} (h : Terminal k e) (hk : k ≠ .eof) :
      L.ReadsFrom Eq k (do advance; return e) (do advance; return e) fun e ks =>
        Derives (.tree .operand e) ks :=
    Logic.readsFrom_advance hk (Logic.reads_pure (.terminal h))
  apply Logic.reads_current
  intro token
  cases token.kind
  case int n =>
    apply Logic.readsFrom_advance (by rintro ⟨⟩)
    apply Logic.reads_current
    intro word
    cases hunit : word.kind.unit? with
    | none => apply Logic.readsFrom_pure (.terminal (.int n))
    | some unit =>
      apply (Logic.reads_duration hunit n).mono
      intro e ks he
      apply he.2
  case float x =>
    apply Logic.readsFrom_get
    intro s _
    apply Logic.ReadsFrom.ite
    · intro _
      apply Logic.readsFrom_fail
    · intro _
      apply hterminal (.float x) (by rintro ⟨⟩)
  case str s => apply hterminal (.str s) (by rintro ⟨⟩)
  case bool b => apply hterminal (.bool b) (by rintro ⟨⟩)
  case date d => apply hterminal (.date d) (by rintro ⟨⟩)
  case dateTime t => apply hterminal (.dateTime t) (by rintro ⟨⟩)
  case ident name => apply hterminal (.var name) (by rintro ⟨⟩)
  case functionName name =>
    apply Logic.readsFrom_advance (by rintro ⟨⟩)
    apply (Logic.reads_call hexpression name).mono
    rintro e ks ⟨args, ls, rfl, hargs, rfl⟩
    exact .call name hargs
  case symbol s =>
    cases s
    case leftBracket =>
      apply Logic.readsFrom_advance (by rintro ⟨⟩)
      apply (Logic.reads_sequence hexpression .rightBracket _).bind
      rintro es ks ⟨ls, hes, rfl⟩
      apply Logic.reads_pure
      have h := Derives.list (.items hes)
      simpa using h
    case leftBrace =>
      apply Logic.readsFrom_advance (by rintro ⟨⟩)
      apply (Logic.reads_sequence (Logic.reads_entry hexpression) .rightBrace _).bind
      rintro entries ks ⟨ls, hentries, rfl⟩
      apply Logic.reads_pure
      have h := Derives.object (.entries hentries)
      simpa using h
    case leftParen =>
      apply Logic.readsFrom_advance (by rintro ⟨⟩)
      apply hexpression.bind
      intro e ks he
      apply Logic.reads_eat
      · apply Logic.reads_pure
        exact .group he
      · apply Logic.reads_fail
    all_goals apply Logic.readsFrom_fail
  case eof => apply Logic.readsFrom_fail

/-- What stands behind a dot extends the base. -/
theorem Logic.reads_member (base : Expr) :
  L.Reads Eq (member expression base) (member expression' base) fun next ks =>
    ks ≠ [] ∧ Extends .access base (some next) (.symbol .dot :: ks)
  := by
  apply Logic.reads_current
  intro token
  cases token.kind
  case ident name =>
    apply Logic.readsFrom_advance (by rintro ⟨⟩)
    apply Logic.reads_pure
    use List.cons_ne_nil _ _
    intro e ls htail
    exact .property htail
  case functionName name =>
    dsimp only
    cases hpath : base.path? with
    | none => apply Logic.readsFrom_fail
    | some path =>
      apply Logic.readsFrom_advance (by rintro ⟨⟩)
      apply (Logic.reads_call hexpression _).mono
      rintro next ks ⟨args, ls, rfl, hargs, rfl⟩
      use List.cons_ne_nil _ _
      intro e rest htail
      have h := Derives.qualified hpath hargs htail
      simpa using h
  all_goals apply Logic.readsFrom_fail

theorem Logic.reads_postfixStep (base : Expr) :
  L.Reads LE.le (postfixStep expression base) (postfixStep expression' base)
    (Extends .access base)
  := by
  apply Logic.reads_current
  intro token
  cases token.kind
  case symbol s =>
    cases s
    case dot =>
      apply Logic.readsFrom_deepen
      apply Logic.readsFrom_advance (by rintro ⟨⟩)
      apply (Logic.reads_member hexpression base).le.bind
      rintro next ks ⟨-, hnext⟩
      apply Logic.reads_pure
      simpa using hnext
    case leftBracket =>
      apply Logic.readsFrom_deepen
      apply Logic.readsFrom_advance (by rintro ⟨⟩)
      apply hexpression.le.bind
      intro key ks hkey
      apply Logic.reads_eat
      · apply Logic.reads_pure
        intro e ls htail
        have h := Derives.index hkey htail
        simpa using h
      · apply Logic.reads_fail
    all_goals exact Logic.readsFrom_pure rfl
  all_goals exact Logic.readsFrom_pure rfl

end

/-! ### Levels -/

/-- The nonterminal of a level at which a step deeper is taken. -/
def Level.nonterminal : Level → Nonterminal
  | .expression => .disjunction
  | .negation => .negation
  | .sign => .sign

section

variable {nest : Level → m Expr} {nest' : Level → Parser Expr}
  (hnest : ∀ l, L.Reads Eq (nest l) (nest' l) fun e ks => Derives (.tree l.nonterminal e) ks)
include hnest

theorem Logic.reads_access :
  L.Reads Eq (chain (primary (nest .expression)) (postfixStep (nest .expression)))
    (chain (primary (nest' .expression)) (postfixStep (nest' .expression))) fun e ks =>
      Derives (.tree .access e) ks
  := by
  apply Logic.reads_chain rfl (Logic.reads_primary (hnest .expression))
  apply Logic.reads_postfixStep (hnest .expression)

theorem Logic.reads_signs :
  L.Reads Eq (signs nest) (signs nest') fun e ks => Derives (.tree .sign e) ks
  := by
  have haccess := (Logic.reads_access hnest).mono fun _ _ => Derives.unsigned
  apply Logic.reads_current
  intro token
  cases token.kind
  case symbol s =>
    dsimp only
    cases hs : UnaryOp.ofSymbol? s with
    | none => apply haccess
    | some op =>
      obtain rfl := UnaryOp.ofSymbol?_eq_some_iff.mp hs
      apply Logic.readsFrom_advance (by rintro ⟨⟩)
      apply (hnest .sign).bind
      intro e ks he
      apply Logic.reads_pure
      have h := Derives.signed op he
      simpa using h
  all_goals apply haccess

theorem Logic.reads_products :
  L.Reads Eq (products nest) (products nest') fun e ks => Derives (.tree .product e) ks
  := by
  apply Logic.reads_chain rfl (Logic.reads_signs hnest)
  apply Logic.reads_binaryStep rfl _ (Logic.reads_signs hnest)
  intro s combine hs
  obtain ⟨op, hop, rfl⟩ := Option.map_eq_some_iff.mp hs
  obtain ⟨rfl, rfl | rfl | rfl⟩ := ArithmeticOp.ofMultiplicative?_eq_some_iff.mp hop
  · apply Connective.multiply
  · apply Connective.divide
  · apply Connective.modulo

theorem Logic.reads_sums :
  L.Reads Eq (sums nest) (sums nest') fun e ks => Derives (.tree .sum e) ks
  := by
  apply Logic.reads_chain rfl (Logic.reads_products hnest)
  apply Logic.reads_binaryStep rfl _ (Logic.reads_products hnest)
  intro s combine hs
  obtain ⟨op, hop, rfl⟩ := Option.map_eq_some_iff.mp hs
  obtain ⟨rfl, rfl | rfl⟩ := ArithmeticOp.ofAdditive?_eq_some_iff.mp hop
  · apply Connective.add
  · apply Connective.subtract

theorem Logic.reads_memberships :
  L.Reads Eq (memberships nest) (memberships nest') fun e ks => Derives (.tree .membership e) ks
  := by
  apply Logic.reads_chain rfl (Logic.reads_sums hnest)
  apply Logic.reads_membershipStep (Logic.reads_sums hnest)

theorem Logic.reads_comparisons :
  L.Reads Eq (comparisons nest) (comparisons nest') fun e ks => Derives (.tree .comparison e) ks
  := by
  apply Logic.reads_chain rfl (Logic.reads_memberships hnest)
  apply Logic.reads_binaryStep rfl _ (Logic.reads_memberships hnest)
  intro s combine hs
  obtain ⟨op, hop, rfl⟩ := Option.map_eq_some_iff.mp hs
  obtain rfl := CompareOp.ofSymbol?_eq_some_iff.mp hop
  apply Connective.compare

theorem Logic.reads_negations :
  L.Reads Eq (negations nest) (negations nest') fun e ks => Derives (.tree .negation e) ks
  := by
  apply Logic.reads_current
  intro token
  apply Logic.ReadsFrom.ite
  · intro hnot
    rw [hnot]
    apply Logic.readsFrom_advance (by rintro ⟨⟩)
    apply (hnest .negation).bind
    intro e ks he
    apply Logic.reads_pure
    have h := Derives.not he
    simpa using h
  · intro _
    apply (Logic.reads_comparisons hnest _).mono
    intro e ks he
    exact .notNegated he

theorem Logic.reads_conjunctions :
  L.Reads Eq (conjunctions nest) (conjunctions nest') fun e ks =>
    Derives (.tree .conjunction e) ks
  := by
  apply Logic.reads_chain rfl (Logic.reads_negations hnest)
  apply Logic.reads_binaryStep rfl _ (Logic.reads_negations hnest)
  intro s combine hs
  obtain ⟨hsymbol, hcombine⟩ := Option.ite_none_right_eq_some.mp hs
  obtain rfl := Option.some.inj hcombine
  obtain rfl | rfl := hsymbol
  · apply Connective.and
  · apply Connective.ampersands

theorem Logic.reads_disjunctions :
  L.Reads Eq (disjunctions nest) (disjunctions nest') fun e ks =>
    Derives (.tree .disjunction e) ks
  := by
  apply Logic.reads_chain rfl (Logic.reads_conjunctions hnest)
  apply Logic.reads_binaryStep rfl _ (Logic.reads_conjunctions hnest)
  intro s combine hs
  obtain ⟨hsymbol, hcombine⟩ := Option.ite_none_right_eq_some.mp hs
  obtain rfl := Option.some.inj hcombine
  obtain rfl | rfl := hsymbol
  · apply Connective.or
  · apply Connective.bars

theorem Logic.reads_body (l : Level) :
  L.Reads Eq (l.body nest) (l.body nest') fun e ks => Derives (.tree l.nonterminal e) ks
  := by
  cases l with
  | expression => apply Logic.reads_disjunctions hnest
  | negation => apply Logic.reads_negations hnest
  | sign => apply Logic.reads_signs hnest

end

/-- The logic in which every reader is related to every parser. -/
def Logic.trivial (limit : Nat) (tokens : List Token) : Logic limit tokens Parser where
  Rel _ _ _ := True
  rel_pure _ := True.intro
  rel_bind _ _ := True.intro
  rel_get := True.intro
  rel_set _ := True.intro
  rel_modify _ := True.intro
  rel_throw _ := True.intro
  rel_deepen _ := True.intro

/-- Every level reads what its nonterminal derives. -/
theorem reads_level
    (fuel : Nat) (l : Level) :
  (Logic.trivial limit tokens).Reads Eq (level fuel l) (level fuel l) fun e ks =>
    Derives (.tree l.nonterminal e) ks
  := by
  induction fuel generalizing l with
  | zero =>
    intro k s hs hk
    constructor
    · trivial
    · intro e t h
      cases yields_fail.mp (yields_bind_read.mp h)
  | succ fuel ih =>
    apply Logic.Reads.nested
    apply Logic.reads_body ih l

/-- In a logic the levels with some fuel are related to those with more of it, if they are so
without fuel. -/
theorem Logic.reads_level {more : Nat}
    (hzero : ∀ l s, s.Within limit tokens → L.Rel s (level 0 l) (level more l)) (fuel : Nat)
    (l : Level) :
  L.Reads Eq (level fuel l) (level (fuel + more) l) fun e ks =>
    Derives (.tree l.nonterminal e) ks
  := by
  induction fuel generalizing l with
  | zero =>
    rw [Nat.zero_add]
    apply (Parser.reads_level more l).of_rel (hzero l)
  | succ fuel ih =>
    rw [Nat.succ_add]
    apply Logic.Reads.nested
    apply Logic.reads_body ih l

/-- The end of input is looked for behind an expression. -/
theorem Logic.holds_end {s : ParserState} (hs : s.Within limit tokens) (e : Expr) :
  L.Holds s (do if (← get).cursor.isAtEnd then return e else fail .trailing)
    (do if (← get).cursor.isAtEnd then return e else fail .trailing) fun _ _ => True
  := by
  apply (Logic.holds_get hs).bind
  rintro _ s - ⟨rfl, rfl⟩
  apply Logic.Holds.ite
  · intro _
    exact Logic.holds_pure hs True.intro
  · intro _
    apply Logic.holds_fail hs

end Parser

end RuleLang
