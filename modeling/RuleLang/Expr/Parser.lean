import RuleLang.Expr.Basic
import RuleLang.Expr.Fault
import RuleLang.Token.Cursor

/-!
# Reading expressions

`Expr.ofTokens` reads an expression from tokens.  Binary operators bind on six levels,
from `OR` down to products, and fold to the left on each; prefix operators, properties,
keys and calls bind tighter.  A depth is counted along: parentheses, prefix operators
and every step of a chain count one, and a chain gives back what it counted when it
ends.  No construct is read above the limit of the depth.  A tree can be higher than
that, since what a chain hands on keeps its height.

The readers are written for every monad that knows the limit, holds the state and can fail,
so that they can also run in one that lists the states they pass through.
-/

namespace RuleLang

/-- What a parser has before it, and the depth at which it stands. -/
structure ParserState where
  cursor : Cursor
  depth : Nat

/-- The monad in which expressions are read, given the limit of the depth. -/
abbrev Parser := ReaderT Nat (StateT ParserState (Except ParseError))

namespace Parser

variable {m : Type → Type} [Monad m] [MonadReaderOf Nat m] [MonadStateOf ParserState m]
  [MonadExceptOf ParseError m]

/-! ### Single tokens -/

/-- The current token. -/
def current : m Token := return (← get).cursor.current

/-- Goes behind the current token. -/
def advance : m Unit := modify fun s => { s with cursor := s.cursor.advance }

/-- Fails at the current token. -/
def fail {α : Type} (fault : TokenKind → ParseFault) : m α := do
  let t ← current
  throw ((fault t.kind).located t)

/-- Goes behind the current token if it is the symbol `s`, and tells whether it is. -/
def eat (s : Symbol) : m Bool := do
  if (← current).kind = .symbol s then
    advance
    return true
  else return false

/-! ### The depth -/

/-- Counts one step deeper, within the limit. -/
def deepen : m Unit := do
  let limit ← read
  if limit ≤ (← get).depth then fail fun _ => .tooDeep limit
  else modify fun s => { s with depth := s.depth + 1 }

/-- Reads a construct one step deeper. -/
def nested (body : m Expr) : m Expr := do
  deepen
  let e ← body
  modify fun s => { s with depth := s.depth - 1 }
  return e

/-! ### Chains -/

/-- Takes steps from `e` until there is none, at most one for each token of `ahead`. -/
def steps (step : Expr → m (Option Expr)) (ahead : List Token) (e : Expr) : m Expr := do
  match ahead with
  | [] => return e
  | _ :: ahead =>
    match ← step e with
    | some e => steps step ahead e
    | none => return e

/-- An expression and all steps that extend it.  Every step takes a token, so there are
no more steps than tokens ahead; what they counted of the depth is given back. -/
def chain (first : m Expr) (step : Expr → m (Option Expr)) : m Expr := do
  let e ← first
  let s ← get
  let e ← steps step s.cursor.rest e
  modify fun t => { t with depth := s.depth }
  return e

/-- A binary operator, if there is one, and its right operand. -/
def binaryStep (operator? : Symbol → Option (Expr → Expr → Expr)) (operand : m Expr)
    (left : Expr) : m (Option Expr) := do
  match (← current).kind with
  | .symbol s =>
    match operator? s with
    | some combine =>
      deepen
      advance
      let right ← operand
      return some (combine left right)
    | none => return none
  | _ => return none

/-- A test of membership, if there is one, and its right operand.  A negated one is two
steps, for the test and its negation. -/
def membershipStep (operand : m Expr) (left : Expr) : m (Option Expr) := do
  let cursor := (← get).cursor
  if cursor.current.kind = .symbol .wordNot ∧ cursor.next = .symbol .wordIn then
    deepen
    advance
    deepen
    advance
    let right ← operand
    return some (.not (.membership .isIn left right))
  else
    binaryStep (fun s => (MembershipOp.ofSymbol? s).map .membership) operand left

/-! ### Sequences -/

/-- Items with commas between them, up to the symbol `close`.  Every item takes a token,
so there are no more items than tokens in `ahead`. -/
def items {α : Type} (item : m α) (close : Symbol) (fault : TokenKind → ParseFault)
    (ahead : List Token) : m (List α) := do
  let a ← item
  match ahead with
  | [] => fail fault
  | _ :: ahead =>
    if ← eat .comma then
      let rest ← items item close fault ahead
      return a :: rest
    else if ← eat close then return [a]
    else fail fault

/-- A sequence of items that may be empty. -/
def sequence {α : Type} (item : m α) (close : Symbol) (fault : TokenKind → ParseFault) :
    m (List α) := do
  if ← eat close then return []
  else items item close fault (← get).cursor.rest

/-! ### Durations -/

/-- The further parts of a duration at the front of tokens, and the tokens behind them; or
the token of an amount that is no integer. -/
def durationParts : List Token → Except Token (List (Int64 × DurationUnit) × List Token)
  | t :: u :: rest =>
    match t.kind, u.kind.unit? with
    | .int n, some unit => do
      let (parts, rest) ← durationParts rest
      return ((n, unit) :: parts, rest)
    | .float _, some _ => throw t
    | _, _ => return ([], t :: u :: rest)
  | tokens => return ([], tokens)

/-- The words that count a duration from the present, if there are any. -/
def direction? : m (Option Direction) := do
  let kind := (← current).kind
  if kind.isWord "ago" then
    advance
    return some .ago
  else if kind.isWord "from" then
    advance
    if (← current).kind.isWord "now" then
      advance
      return some .fromNow
    else fail .noNow
  else return none

/-- A duration whose first amount has been read and whose first unit is the current
token. -/
def duration (amount : Int64) (unit : DurationUnit) : m Expr := do
  advance
  let s ← get
  match durationParts s.cursor.rest with
  | .error t => throw (ParseFault.fractionalAmount.located t)
  | .ok (parts, rest) =>
    set { s with cursor := { s.cursor with rest } }
    let e := Expr.duration ((amount, unit) :: parts)
    match ← direction? with
    | some direction => return .relative e direction
    | none => return e

/-! ### Operands -/

/-- A call of the function `name`, from its opening parenthesis on. -/
def call (expression : m Expr) (name : String) : m Expr := do
  if ← eat .leftParen then
    let args ← sequence expression .rightParen (.openArguments name)
    return .call name args
  else fail (.noArguments name)

/-- An entry of an object: a key, a colon and a value. -/
def entry (expression : m Expr) : m (String × Expr) := do
  match (← current).kind with
  | .ident key | .str key =>
    advance
    if ← eat .colon then
      let value ← expression
      return (key, value)
    else fail (.noColon key)
  | _ => fail .badKey

/-- A literal, a variable, a call, a list, an object or an expression in parentheses. -/
def primary (expression : m Expr) : m Expr := do
  let t ← current
  let literal (l : Literal) : m Expr := do
    advance
    return .literal l
  match t.kind with
  | .int n =>
    advance
    match (← current).kind.unit? with
    | some unit => duration n unit
    | none => return .literal (.int n)
  | .float x =>
    if ((← get).cursor.next.unit?).isSome then fail fun _ => .fractionalAmount
    else literal (.float x)
  | .str s => literal (.str s)
  | .bool b => literal (.bool b)
  | .date d => literal (.date d)
  | .dateTime t => literal (.dateTime t)
  | .ident name =>
    advance
    return .var name
  | .functionName name =>
    advance
    call expression name
  | .symbol .leftBracket =>
    advance
    let items ← sequence expression .rightBracket (.openEnclosure .list)
    return .list items
  | .symbol .leftBrace =>
    advance
    let entries ← sequence (entry expression) .rightBrace (.openEnclosure .object)
    return .object entries
  | .symbol .leftParen =>
    advance
    let e ← expression
    if ← eat .rightParen then return e else fail (.openParen t.line t.column)
  | _ => fail .noExpression

/-- What stands behind a dot: the name of a property, or a call of a function whose name
is a path. -/
def member (expression : m Expr) (base : Expr) : m Expr := do
  match (← current).kind with
  | .ident name =>
    advance
    return .property base name
  | .functionName name =>
    match base.path? with
    | some path =>
      advance
      call expression (path ++ "." ++ name)
    | none => fail fun _ => .noPath
  | _ => fail .noProperty

/-- A property, a qualified call or a key in brackets, if there is one. -/
def postfixStep (expression : m Expr) (base : Expr) : m (Option Expr) := do
  match (← current).kind with
  | .symbol .dot =>
    deepen
    advance
    let e ← member expression base
    return some e
  | .symbol .leftBracket =>
    deepen
    advance
    let key ← expression
    if ← eat .rightBracket then return some (.index base key)
    else fail (.openEnclosure .bracketAccess)
  | _ => return none

/-! ### Levels -/

/-- The levels of expressions at which a step deeper is taken: a whole expression, the
operand of `NOT`, and the operand of a sign. -/
inductive Level where
  | expression
  | negation
  | sign

/-- A sign and its operand, or an operand with all that is behind it. -/
def signs (nest : Level → m Expr) : m Expr := do
  let postfixed := chain (primary (nest .expression)) (postfixStep (nest .expression))
  match (← current).kind with
  | .symbol s =>
    match UnaryOp.ofSymbol? s with
    | some op =>
      advance
      let operand ← nest .sign
      return .unary op operand
    | none => postfixed
  | _ => postfixed

/-- Products. -/
def products (nest : Level → m Expr) : m Expr :=
  chain (signs nest)
    (binaryStep (fun s => (ArithmeticOp.ofMultiplicative? s).map .arithmetic) (signs nest))

/-- Sums. -/
def sums (nest : Level → m Expr) : m Expr :=
  chain (products nest)
    (binaryStep (fun s => (ArithmeticOp.ofAdditive? s).map .arithmetic) (products nest))

/-- Tests of membership. -/
def memberships (nest : Level → m Expr) : m Expr :=
  chain (sums nest) (membershipStep (sums nest))

/-- Comparisons. -/
def comparisons (nest : Level → m Expr) : m Expr :=
  chain (memberships nest)
    (binaryStep (fun s => (CompareOp.ofSymbol? s).map .compare) (memberships nest))

/-- A negation or a comparison. -/
def negations (nest : Level → m Expr) : m Expr := do
  if (← current).kind = .symbol .wordNot then
    advance
    let operand ← nest .negation
    return .not operand
  else comparisons nest

/-- Conjunctions. -/
def conjunctions (nest : Level → m Expr) : m Expr :=
  let operator? (s : Symbol) : Option (Expr → Expr → Expr) :=
    if s = .wordAnd ∨ s = .ampersands then some .and else none
  chain (negations nest) (binaryStep operator? (negations nest))

/-- Disjunctions. -/
def disjunctions (nest : Level → m Expr) : m Expr :=
  let operator? (s : Symbol) : Option (Expr → Expr → Expr) :=
    if s = .wordOr ∨ s = .bars then some .or else none
  chain (conjunctions nest) (binaryStep operator? (conjunctions nest))

/-- What is read on a level. -/
def Level.body (nest : Level → m Expr) : Level → m Expr
  | .expression => disjunctions nest
  | .negation => negations nest
  | .sign => signs nest

/-- An expression of a level, one step deeper.  Below the limit of the depth there are
at most as many steps, so a limit is its own `fuel`; without fuel the depth is at the
limit. -/
def level : (fuel : Nat) → Level → m Expr
  | 0, _ => do
    let limit ← read
    fail fun _ => .tooDeep limit
  | fuel + 1, l => nested (l.body (level fuel))

/-- An expression and the end of input behind it. -/
def whole : Parser Expr := do
  let e ← level (← read) .expression
  if (← get).cursor.isAtEnd then return e else fail .trailing

end Parser

/-- The limit of the depth of expressions where no other is given. -/
def defaultDepth : Nat := 256

/-- The expression that tokens form, within a limit of the depth. -/
def Expr.ofTokens (limit : Nat) (tokens : List Token) : Except ParseError Expr := do
  let (e, _) ← Parser.whole.run limit |>.run ⟨.ofTokens tokens, 0⟩
  return e

end RuleLang
