import RuleLang.Eval.Builtin
import RuleLang.Eval.Machine
import RuleLang.Expr.Format
import RuleLang.Expr.Parser
import RuleLang.Program.Lowering
import RuleLang.Token.Lexer

/-!
# The engine

An engine holds the functions and the choices under which expressions are read and
evaluated.  It takes an expression from its text to a program and on to a value;
`RuleError` is whatever goes wrong on the way.
-/

namespace RuleLang

/-- What goes wrong between the text of an expression and its value. -/
inductive RuleError where
  | lex (e : LexError)
  | parse (e : ParseError)
  | eval (e : EvalError)
  | wire (e : WireError)

/-- The part of the text that an error is about. -/
def RuleError.span? : RuleError → Option Span
  | lex e => some e.span
  | parse e => some e.span
  | eval _ | wire _ => none

/-- The expression that a text is read as, within a limit of the depth. -/
def Expr.read (limit : Nat) (source : List Char) : Except RuleError Expr := do
  let tokens ← (tokenize source).mapError .lex
  (Expr.ofTokens limit tokens).mapError .parse

/-- The text of an expression in a format. -/
def reformat (f : Format) (source : List Char) : Except RuleError (List Char) := do
  let e ← Expr.read defaultDepth source
  return e.format f

/-- Functions and choices under which expressions are evaluated. -/
structure Engine where
  functions : FunctionTable := .builtins
  options : EvalOptions := {}
  depth : Nat := defaultDepth

namespace Engine

/-- The program of an expression. -/
def compile (engine : Engine) (source : List Char) : Except RuleError Program := do
  let e ← Expr.read engine.depth source
  return e.lower

/-- What programs are evaluated in. -/
def environment (engine : Engine) (clock : DateTime) (context : Context) : Environment :=
  ⟨context, engine.functions, engine.options, clock⟩

/-- The value of a program in a context. -/
def evaluate (engine : Engine) (clock : DateTime) (p : Program) (context : Context) :
    Except EvalError Value :=
  p.evaluate (engine.environment clock context)

/-- The value of an expression in a context. -/
def evaluateSource (engine : Engine) (clock : DateTime) (source : List Char)
    (context : Context) : Except RuleError Value := do
  let p ← engine.compile source
  (engine.evaluate clock p context).mapError .eval

/-- The value of the program that a document is read as. -/
def evaluateJson (engine : Engine) (clock : DateTime) (j : Json) (context : Context) :
    Except EvalError Value := do
  let p ← Program.decode j
  engine.evaluate clock p context

/-- The values of a program in several contexts, in their order. -/
def evaluateMany (engine : Engine) (clock : DateTime) (p : Program) (contexts : List Context) :
    List (Except EvalError Value) :=
  contexts.map (engine.evaluate clock p)

end Engine

end RuleLang
