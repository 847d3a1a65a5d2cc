import RuleLang.Command.Basic

/-!
# Invocations

A whole run of the program: its arguments to what it prints on either channel and the
code with which it ends.
-/

namespace RuleLang.Command

/-- What a run of the program leaves behind. -/
structure Outcome where
  stdout : String := ""
  stderr : String := ""
  code : Nat := 0
deriving DecidableEq, Repr

/-- The help text. -/
def help : String :=
  String.join ([
    "Verdict expression engine",
    "",
    "Usage: verdict <command> [options]",
    "",
    "Commands:",
    "  lex <expr>                 Tokenize and display tokens",
    "  parse <expr>               Parse and display the syntax tree",
    "  compile <expr>             Compile to wire-format JSON",
    "  fmt <expr>                 Print the canonical form",
    "  eval <expr>                Compile and evaluate",
    "  run <program.json>         Evaluate a wire-format program",
    "  batch <expr> <ctx.jsonl>   Evaluate against each context line, in parallel",
    "  help                       Show this help message",
    "  version                    Show version information",
    "",
    "<expr> is inline text, or @path to read it from a file.",
    "",
    "Evaluation options:",
    "  --context=<json|@file>     Variables as a JSON object",
    "  --strict                   Fail on undefined variables",
    "  --now=<datetime>           Clock for 'ago' / 'from now'",
    "",
    "Output options:",
    "  --listing                  compile: one instruction per line",
    "  --parens=<mode>            fmt: minimal, explicit, none",
    "  --spacing=<mode>           fmt: normal, compact, verbose",
    "  --color=<mode>             Diagnostics: auto, always, never",
    "",
    "Logging:",
    "  VERDICT_LOG=<filter>       Enable tracing (e.g. verdict_eval=trace)",
    "  VERDICT_LOG_TREE=1         Hierarchical trace output",
    "",
    "Examples:",
    "  verdict eval 'score > 85' --context='\x7b\"score\": 90\x7d'",
    "  verdict compile '2 + 3 * 4'",
    "  verdict fmt 'a AND (b OR c)' --parens=explicit",
    "  verdict batch @rule.vd users.jsonl"].map (· ++ "\n"))

/-- The text that names the version. -/
def version : String := "Verdict 0.1.0\n"

/-- What a first argument asks for. -/
inductive Request where
  | command (name : Name)
  | help
  | version
  | unknown (text : String)
deriving DecidableEq, Repr

/-- What the first argument asks for. -/
def Request.ofText (text : String) : Request :=
  match Name.ofText? text with
  | some name => command name
  | none =>
    if text = "help" ∨ text = "--help" ∨ text = "-h" then help
    else if text = "version" ∨ text = "--version" ∨ text = "-v" then version
    else unknown text

/-- The paths of all files that a run with the given arguments may read. -/
def pathsOf : List String → List String
  | [] => []
  | _ :: args =>
    match Options.ofArguments args with
    | .ok o => o.paths
    | .error _ => []

/-- A run of the program with the given arguments. -/
def invoke (files : Files) (clock : DateTime) (terminal : Bool) : List String → Outcome
  | [] => { stdout := help }
  | first :: args =>
    match Request.ofText first with
    | .help => { stdout := help }
    | .version => { stdout := version }
    | .unknown text =>
      { stdout := help, stderr := "Unknown command: " ++ text ++ "\n\n", code := 1 }
    | .command name =>
      match Options.ofArguments args with
      | .error fault =>
        { stderr := "error: " ++ fault.message ++ "\nRun 'verdict help' for usage.\n", code := 1 }
      | .ok o =>
        match name.perform files clock o with
        | .ok text => { stdout := text }
        | .error failure => { stderr := failure.report o.color terminal, code := 1 }

end RuleLang.Command
