import RuleLang.Token.Literal

/-!
# Division into tokens

`tokenize` divides the text of an expression into tokens, the last of which is the end
of input.  The whole text is divided into lexemes before any literal is read, so a
fault between lexemes comes before a fault inside one.
-/

namespace RuleLang

/-- What went wrong in dividing a text. -/
abbrev LexError := Located LexFault

namespace Lexeme

/-- The token that a lexeme is, before the lexemes `rest`. -/
def toToken (l : Lexeme) (rest : List Lexeme) : Except LexError Token :=
  let beforeParen := rest.head?.any (·.kind = .symbol .leftParen)
  match l.toKind beforeParen with
  | .ok kind => .ok ⟨kind, l.span, l.start.line, l.start.column, l.text.length⟩
  | .error (fault, before) =>
    let p := l.start.advanceBy (l.text.take before)
    .error ⟨fault, l.span, p.line, p.column⟩

/-- The tokens that lexemes are. -/
def toTokens : List Lexeme → Except LexError (List Token)
  | [] => .ok []
  | l :: rest => do
    let t ← l.toToken rest
    let ts ← toTokens rest
    return t :: ts

end Lexeme

/-- The end of a text as a token. -/
def Token.atEnd (p : Position) : Token :=
  ⟨.eof, .point p.offset, p.line, p.column, 0⟩

/-- The tokens of a text. -/
def tokenize (source : List Char) : Except LexError (List Token) := do
  let (ls, stop) ← lexemes source
  let ts ← Lexeme.toTokens ls
  return ts ++ [.atEnd stop]

end RuleLang
