import RuleLang.Engine

/-!
# Diagnostics

How an error is reported: a line with its message, and for an error with a place in the
text that place and the line around it, with the part at fault underlined.
-/

namespace RuleLang

/-- When reports are coloured: on a terminal, always, or never. -/
inductive ColorMode where
  | auto
  | always
  | never
deriving DecidableEq, Repr

namespace ColorMode

/-- The choice with the given name. -/
def ofName? : String → Option ColorMode
  | "auto" => some auto
  | "always" => some always
  | "never" => some never
  | _ => none

/-- Whether a report is coloured. -/
def paints (m : ColorMode) (terminal : Bool) : Bool :=
  match m with
  | auto => terminal
  | always => true
  | never => false

end ColorMode

/-- A line of a text, the number of its characters before the part at fault, and the
number of characters to be underlined. -/
structure Snippet where
  line : List Char
  offset : Nat
  width : Nat
deriving DecidableEq, Repr

/-- The line of a text in which a range begins.  What lies beyond the line is not
underlined, and at least one character is. -/
def Snippet.locate? (source : List Char) (span : Span) : Option Snippet := do
  let start := min span.start (byteSize source)
  let before ← takeBytes? start source
  let after ← dropBytes? start source
  let left := (before.reverse.takeWhile (· ≠ '\n')).reverse
  let right := after.takeWhile (· ≠ '\n')
  let covered := takeBytes? (min (span.stop - start) (byteSize right)) after
  return {
    line := Text.dropEndWhile (· = '\r') (left ++ right)
    offset := left.length
    width := max 1 (covered.elim 0 List.length) }

namespace Diagnostic

/-- The escapes that begin and end a colour. -/
inductive Paint where
  | error
  | gutter
  | bold
deriving DecidableEq, Repr

/-- The escape that begins a colour. -/
def Paint.escape : Paint → String
  | error => "\x1b[1;31m"
  | gutter => "\x1b[1;34m"
  | bold => "\x1b[1m"

/-- A text in a colour, if the report is coloured. -/
def paint (colored : Bool) (p : Paint) (text : String) : String :=
  if colored then p.escape ++ text ++ "\x1b[0m" else text

/-- The line with the message of an error and, in brackets, its class. -/
def header (colored : Bool) (reason : Option Reason) (message : String) : String :=
  let bracket := match reason with
    | some r => paint colored .bold ("[" ++ r.name ++ "]")
    | none => ""
  paint colored .error "error" ++ bracket ++ ": " ++ message ++ "\n"

/-- The `n` blanks that keep the lines of a report in line. -/
def blanks (n : Nat) : String := String.ofList (List.replicate n ' ')

/-- The report of an error with a place, with the line around it if the text is given. -/
def positioned {α : Type} (colored : Bool) (describe : α → String) (e : Located α)
    (source : Option (List Char)) : String :=
  let number := toString e.line
  let gutter := blanks number.length
  let bar := paint colored .gutter (gutter ++ " |")
  let snippet := match source.bind (Snippet.locate? · e.span) with
    | none => ""
    | some s =>
      let underline := blanks s.offset ++ String.ofList (List.replicate s.width '^')
      bar ++ "\n" ++ paint colored .gutter (number ++ " |") ++ " " ++ String.ofList s.line ++ "\n"
        ++ bar ++ " " ++ paint colored .error underline ++ "\n"
  header colored none (describe e.cause) ++ gutter ++ paint colored .gutter "-->" ++ " "
    ++ number ++ ":" ++ toString e.column ++ "\n" ++ snippet

/-- The report of an error, with the line around its place if the text is given. -/
def render (colored : Bool) (source : Option (List Char)) : RuleError → String
  | .lex e => positioned colored LexFault.message e source
  | .parse e => positioned colored ParseFault.message e source
  | .eval e => header colored e.reason? e.message
  | .wire e => header colored none ("invalid program: " ++ e.message)

end Diagnostic

end RuleLang
