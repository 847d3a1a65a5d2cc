import RuleLang.Calendar.Printer
import RuleLang.Expr.Basic
import RuleLang.Number.Notation
import RuleLang.Number.Word
import RuleLang.Token.Lexeme

/-!
# Writing expressions

`Expr.format` writes an expression in one of the ways that a `Format` chooses: which
operands are put in parentheses, and where blanks stand.  The text is made of pieces, in
which the parentheses around operands are told from those of calls.  With the default
format it is the canonical text of the expression.
-/

namespace RuleLang

/-- Which operands are put in parentheses: those that would be read otherwise without,
all that are no plain operands, or none. -/
inductive Parens where
  | minimal
  | explicit
  | none
deriving DecidableEq, Repr

/-- The choice with the given name. -/
def Parens.ofName? : String → Option Parens
  | "minimal" => some minimal
  | "explicit" => some explicit
  | "none" => some none
  | _ => Option.none

/-- Where blanks stand: around operators and behind commas, only where they are needed, or
inside brackets as well. -/
inductive Spacing where
  | normal
  | compact
  | verbose
deriving DecidableEq, Repr

/-- The choice with the given name. -/
def Spacing.ofName? : String → Option Spacing
  | "normal" => some normal
  | "compact" => some compact
  | "verbose" => some verbose
  | _ => none

/-- A way to write expressions. -/
structure Format where
  parens : Parens := .minimal
  spacing : Spacing := .normal
deriving DecidableEq, Repr

/-- A part of the text of an expression. -/
inductive Piece where
  | text (cs : List Char)
  | gap
  /-- An opening parenthesis around an operand. -/
  | openGroup
  /-- A closing parenthesis around an operand. -/
  | closeGroup
deriving DecidableEq, Repr

/-- The characters of a part. -/
def Piece.chars : Piece → List Char
  | text cs => cs
  | gap => [' ']
  | openGroup => ['(']
  | closeGroup => [')']

/-- A string as a literal, with an escape for what cannot stand in one plainly. -/
def quoteSource (cs : List Char) : List Char :=
  '"' :: (cs.flatMap escaped ++ ['"'])
where
  /-- The form of a character in a literal. -/
  escaped : Char → List Char
    | '"' => ['\\', '"']
    | '\\' => ['\\', '\\']
    | '\n' => ['\\', 'n']
    | '\t' => ['\\', 't']
    | '\r' => ['\\', 'r']
    | c => [c]

/-- Whether a key of an object can be written without quotes: it is a word that names no
symbol and no truth value. -/
def isBareKey (key : List Char) : Bool :=
  match key with
  | [] => false
  | c :: rest =>
    Lexeme.isWordStart c && rest.all Lexeme.isWordChar && Lexeme.wordKind key = .word

/-- A literal as it is written. -/
def Literal.source : Literal → List Char
  | int n => (Word.text n).toList
  | float x => (FloatNotation.fractional.write x).toList
  | str s => quoteSource s.toList
  | bool b => (toString b).toList
  | date d => '#' :: (d.text ++ ['#'])
  | dateTime t => '#' :: (t.text ++ ['#'])

namespace Format

/-- A blank where the spacing is not compact. -/
def wideGap (f : Format) : List Piece :=
  if f.spacing = .compact then [] else [.gap]

/-- A blank inside the brackets of a construct that is not empty, where the spacing asks
for it. -/
def innerGap (f : Format) (empty : Bool) : List Piece :=
  if f.spacing = .verbose ∧ ¬empty then [.gap] else []

/-- An operator between its operands.  Words always have blanks around them. -/
def operator (f : Format) (word : Bool) (text : String) : List Piece :=
  let gap := if word then [.gap] else f.wideGap
  gap ++ .text text.toList :: gap

/-- A comma or a colon, with the blank behind it. -/
def separator (f : Format) (c : Char) : List Piece :=
  .text [c] :: f.wideGap

/-- A construct in brackets. -/
def enclose (f : Format) (opening closing : Char) (empty : Bool) (inside : List Piece) :
    List Piece :=
  .text [opening] :: (f.innerGap empty ++ inside ++ f.innerGap empty ++ [.text [closing]])

/-- An operand, in parentheses when the format asks for them; `required` says that it
would be read otherwise without. -/
def operand (f : Format) (required : Bool) (precedence : Nat) (inside : List Piece) :
    List Piece :=
  let wrap := match f.parens with
    | .none => false
    | .minimal => required
    | .explicit => required || 2 ≤ precedence
  if wrap then .openGroup :: (inside ++ [.closeGroup]) else inside

/-- A binary operator with its operands, each given with its precedence.  Chains fold to
the left, so an operand on the right needs parentheses already at the same precedence. -/
def binary (f : Format) (precedence : Nat) (operator : List Piece)
    (left right : Nat × List Piece) : List Piece :=
  f.operand (precedence < left.1) left.1 left.2 ++ operator
    ++ f.operand (precedence ≤ right.1) right.1 right.2

/-- A key of an object. -/
def keyText (key : List Char) : List Char :=
  if isBareKey key then key else quoteSource key

/-- A duration: its amounts with their units. -/
def durationPieces : List (Int64 × DurationUnit) → List Piece
  | [] => []
  | [(n, u)] => amount n u
  | (n, u) :: rest => amount n u ++ .gap :: durationPieces rest
where
  /-- An amount with its unit. -/
  amount (n : Int64) (u : DurationUnit) : List Piece :=
    [.text (Word.text n).toList, .gap, .text (u.wordFor n).toList]

end Format

namespace Expr

mutual

/-- The parts of the text of an expression. -/
def pieces (f : Format) : Expr → List Piece
  | literal l => [.text l.source]
  | var name => [.text name.toList]
  | property base name =>
    f.operand (1 < base.precedence) base.precedence (base.pieces f)
      ++ [.text ['.'], .text name.toList]
  | index base key =>
    f.operand (1 < base.precedence) base.precedence (base.pieces f)
      ++ f.enclose '[' ']' false (key.pieces f)
  | compare op l r =>
    f.binary 6 (f.operator false op.symbol) (l.precedence, l.pieces f)
      (r.precedence, r.pieces f)
  | arithmetic op l r =>
    f.binary op.precedence (f.operator false op.symbol) (l.precedence, l.pieces f)
      (r.precedence, r.pieces f)
  | unary op e =>
    .text op.symbol.toList :: f.operand (2 < e.precedence) e.precedence (e.pieces f)
  | and l r =>
    f.binary 8 (f.operator true "AND") (l.precedence, l.pieces f) (r.precedence, r.pieces f)
  | or l r =>
    f.binary 9 (f.operator true "OR") (l.precedence, l.pieces f) (r.precedence, r.pieces f)
  | not e =>
    .text "NOT".toList :: .gap :: f.operand (7 < e.precedence) e.precedence (e.pieces f)
  | membership op l r =>
    f.binary 5 (f.operator true op.symbol) (l.precedence, l.pieces f)
      (r.precedence, r.pieces f)
  | list items => f.enclose '[' ']' items.isEmpty (itemPieces f items)
  | object entries => f.enclose '\x7b' '\x7d' entries.isEmpty (entryPieces f entries)
  | call name args =>
    .text name.toList :: f.enclose '(' ')' args.isEmpty (itemPieces f args)
  | duration parts => Format.durationPieces parts
  | relative d direction => d.pieces f ++ [.gap, .text direction.words.toList]

/-- Expressions with commas between them. -/
def itemPieces (f : Format) : List Expr → List Piece
  | [] => []
  | [e] => e.pieces f
  | e :: rest => e.pieces f ++ f.separator ',' ++ itemPieces f rest

/-- Entries of an object with commas between them. -/
def entryPieces (f : Format) : List (String × Expr) → List Piece
  | [] => []
  | [(key, e)] =>
    .text (Format.keyText key.toList) :: (f.separator ':' ++ e.pieces f)
  | (key, e) :: rest =>
    .text (Format.keyText key.toList)
      :: (f.separator ':' ++ e.pieces f ++ f.separator ',' ++ entryPieces f rest)

end

/-- The text of an expression in a format. -/
def format (f : Format) (e : Expr) : List Char :=
  (e.pieces f).flatMap Piece.chars

/-- The canonical text of an expression. -/
def canonical (e : Expr) : List Char := e.format {}

end Expr

end RuleLang
