import RuleLang.Calendar.Reader
import RuleLang.Number.Word
import RuleLang.Token.Basic
import RuleLang.Token.Fault
import RuleLang.Token.Lexeme

/-!
# Literals

What the literals among the lexemes stand for.  A fault comes with the number of
characters of the lexeme before the place it is about.
-/

namespace RuleLang.Lexeme

/-- What is wrong with a literal, and before which of its characters. -/
abbrev Misread := LexFault × Nat

/-- The word that digits stand for. -/
def readInteger (text : List Char) : Except Misread Int64 :=
  match int64? (digitsValue text) with
  | some n => .ok n
  | none => .error (.integerRange (String.ofList text), 0)

/-- The float nearest to a number with a fraction and, perhaps, an exponent. -/
def readDecimal (text : List Char) : Except Misread Float :=
  let whole := text.takeWhile Char.isDigit
  let rest := text.drop (whole.length + 1)
  let fraction := rest.takeWhile Char.isDigit
  let exponent : Int := match rest.drop (fraction.length + 1) with
    | '-' :: digits => -exponentValue digits
    | '+' :: digits => exponentValue digits
    | digits => exponentValue digits
  let x := (Decimal.ofDigits whole fraction exponent).toFloat false
  if x.isFinite then .ok x else .error (.floatRange (String.ofList text), 0)

/-- The characters that a string stands for, given what is between its quotes and the
number of characters before that. -/
def readEscapes (before : Nat) : List Char → Except Misread (List Char)
  | [] => .ok []
  | ['\\'] => .error (.openString, 0)
  | '\\' :: c :: rest =>
    match escapes.lookup c with
    | some meant => (readEscapes (before + 2) rest).map (meant :: ·)
    | none => .error (.badEscape c, before)
  | c :: rest => (readEscapes (before + 1) rest).map (c :: ·)
where
  /-- The characters that may follow a backslash, each with what it then stands for. -/
  escapes : List (Char × Char) :=
    [('"', '"'), ('\'', '\''), ('\\', '\\'), ('n', '\n'), ('t', '\t'), ('r', '\r')]

/-- The string that a quoted text stands for. -/
def readString (text : List Char) : Except Misread String :=
  (readEscapes 1 (text.drop 1).dropLast).map String.ofList

/-- The day or date-time between number signs.  It is a date-time when it holds a `T` or
a space. -/
def readDate (text : List Char) : Except Misread TokenKind :=
  let inside := Text.trim (Text.trimWhile (· = '#') text)
  if inside.contains 'T' ∨ inside.contains ' ' then
    match DateTime.read? inside with
    | some t => .ok (.dateTime t)
    | none => .error (.badDateTime (String.ofList inside), 0)
  else
    match Date.read inside with
    | .ok d => .ok (.date d)
    | .error _ => .error (.badDate (String.ofList inside), 0)

/-- The token that a lexeme is.  A word is the name of a function when an opening
parenthesis follows. -/
def toKind (l : Lexeme) (beforeParen : Bool) : Except Misread TokenKind :=
  match l.kind with
  | .symbol s => .ok (.symbol s)
  | .word =>
    let name := String.ofList l.text
    .ok (if beforeParen then .functionName name else .ident name)
  | .truth b => .ok (.bool b)
  | .integer => (readInteger l.text).map .int
  | .decimal => (readDecimal l.text).map .float
  | .string => (readString l.text).map .str
  | .date => readDate l.text

end RuleLang.Lexeme
