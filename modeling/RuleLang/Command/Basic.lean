import RuleLang.Command.Options
import RuleLang.Expr.Outline

/-!
# Commands

What can be done with expressions, programs and contexts from the command line.  A
command takes options and the texts of files to what it prints, or to a `Failure`, whose
report goes to the other channel.
-/

namespace RuleLang.Command

/-- A command of the command line. -/
inductive Name where
  | lex
  | parse
  | compile
  | fmt
  | eval
  | run
  | batch
deriving DecidableEq, Repr

namespace Name

/-- The command with the given name. -/
def ofText? : String → Option Name
  | "lex" => some lex
  | "parse" => some parse
  | "compile" => some compile
  | "fmt" => some fmt
  | "eval" => some eval
  | "run" => some run
  | "batch" => some batch
  | _ => none

/-- How a command is used. -/
def usage : Name → String
  | lex => "Usage: verdict lex <expr|@file>"
  | parse => "Usage: verdict parse <expr|@file>"
  | compile => "Usage: verdict compile <expr|@file> [--listing]"
  | fmt =>
    "Usage: verdict fmt <expr|@file> [--parens=minimal|explicit|none]"
      ++ " [--spacing=normal|compact|verbose]"
  | eval =>
    "Usage: verdict eval <expr|@file> [--context=<json|@file>] [--strict] [--now=<datetime>]"
  | run =>
    "Usage: verdict run <program.json> [--context=<json|@file>] [--strict]"
      ++ " [--now=<datetime>]"
  | batch =>
    "Usage: verdict batch <expr|@file> <contexts.jsonl> [--strict] [--now=<datetime>]"

end Name

/-- Why a command fails: it is not used as it should be, what it is given cannot be read,
or an expression or a program is at fault. -/
inductive Failure where
  | usage (name : Name)
  | input (fault : InputFault)
  | error (e : RuleError) (source : Option (List Char))

/-- The report of a failure. -/
def Failure.report (color : ColorMode) (terminal : Bool) : Failure → String
  | usage name => name.usage ++ "\n"
  | input fault => "error: " ++ fault.message ++ "\n"
  | error e source => Diagnostic.render (color.paints terminal) source e

/-- What a command prints, or why it fails. -/
abbrev Result := Except Failure String

/-- The result of a step that is about the text of an expression. -/
def about {α : Type} (source : List Char) (r : Except RuleError α) : Except Failure α :=
  r.mapError fun e => .error e (some source)

/-- The text of the one expression that a command is given. -/
def expression (name : Name) (files : Files) (o : Options) : Except Failure (List Char) :=
  match o.inputs with
  | [arg] => ((files.load arg).mapError .input).map String.toList
  | _ => throw (.usage name)

/-- The engine that the options ask for. -/
def engine (o : Options) : Engine := { options := o.evaluation }

/-- The tokens of an expression, one on each line, with their places. -/
def lex (files : Files) (o : Options) : Result := do
  let source ← expression .lex files o
  let tokens ← about source ((tokenize source).mapError .lex)
  let line (t : Token) : String :=
    "  " ++ t.kind.describe ++ " @ " ++ toString t.line ++ ":" ++ toString t.column ++ "\n"
  return "Tokens (" ++ toString tokens.length ++ "):\n" ++ String.join (tokens.map line)

/-- The outline of an expression and its canonical text. -/
def parse (files : Files) (o : Options) : Result := do
  let source ← expression .parse files o
  let e ← about source (Expr.read defaultDepth source)
  return String.ofList (e.outline.text 0) ++ "\nCanonical: " ++ String.ofList e.canonical
    ++ "\n"

/-- The program of an expression, as a document or as a listing. -/
def compile (files : Files) (o : Options) : Result := do
  let source ← expression .compile files o
  let p ← about source ({ : Engine }.compile source)
  return if o.listing then p.listing else p.wireText ++ "\n"

/-- An expression in the format that the options ask for. -/
def fmt (files : Files) (o : Options) : Result := do
  let source ← expression .fmt files o
  let text ← about source (reformat o.format source)
  return String.ofList text ++ "\n"

/-- The value of an expression in a context. -/
def eval (files : Files) (clock : DateTime) (o : Options) : Result := do
  let source ← expression .eval files o
  let context ← (o.loadContext files).mapError .input
  let v ← about source ((engine o).evaluateSource clock source context)
  return v.text ++ "\n"

/-- The value of a program in a context. -/
def run (files : Files) (clock : DateTime) (o : Options) : Result := do
  match o.inputs with
  | [path] =>
    let text ← (files.read path).mapError .input
    match Json.read? text.toList with
    | none => throw (.input (.notJson path))
    | some j =>
      let context ← (o.loadContext files).mapError .input
      let v ← ((engine o).evaluateJson clock j context).mapError fun e => .error (.eval e) none
      return v.text ++ "\n"
  | _ => throw (.usage .run)

/-- The contexts of lines, with the number of the first line.  Blank lines are passed
over. -/
def contextsOfLines (number : Nat) : List (List Char) → Except InputFault (List Context)
  | [] => return []
  | line :: rest =>
    if (Text.trim line).isEmpty then contextsOfLines (number + 1) rest
    else do
      let context ← (Context.read line).mapError (.contextLine number)
      let contexts ← contextsOfLines (number + 1) rest
      return context :: contexts

/-- The line that shows the result of one context. -/
def resultLine : Except EvalError Value → String
  | .ok v => v.text
  | .error e =>
    match e.reason? with
    | some r => "error[" ++ r.name ++ "]: " ++ e.message
    | none => "error: " ++ e.message

/-- The values of an expression in the contexts of a file, one on each line. -/
def batch (files : Files) (clock : DateTime) (o : Options) : Result := do
  match o.inputs with
  | [arg, path] =>
    let source := (← (files.load arg).mapError .input).toList
    let text ← (files.read path).mapError .input
    let contexts ← (contextsOfLines 1 (Text.lines text.toList)).mapError .input
    let p ← about source ((engine o).compile source)
    let results := (engine o).evaluateMany clock p contexts
    return String.join (results.map fun r => resultLine r ++ "\n")
  | _ => throw (.usage .batch)

/-- What a command prints, or why it fails. -/
def Name.perform (name : Name) (files : Files) (clock : DateTime) (o : Options) : Result :=
  match name with
  | .lex => Command.lex files o
  | .parse => Command.parse files o
  | .compile => Command.compile files o
  | .fmt => Command.fmt files o
  | .eval => Command.eval files clock o
  | .run => Command.run files clock o
  | .batch => Command.batch files clock o

end RuleLang.Command
