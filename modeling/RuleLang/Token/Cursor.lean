import RuleLang.Duration.Unit
import RuleLang.Token.Basic

/-!
# Cursors over tokens

A place in a list of tokens.  The list is taken to end in an end of input even if it
does not hold one, so that there always is a current token.
-/

namespace RuleLang

/-- How many columns there are: a column is a word of 32 bits. -/
def Token.columnCount : Nat := 4294967296

/-- The end of input behind a list of tokens.  Behind the greatest column it lies in
column zero and so on. -/
def Token.endOf (tokens : List Token) : Token :=
  match tokens.getLast? with
  | some last =>
    ⟨.eof, .point last.span.stop, last.line, (last.column + last.length) % columnCount, 0⟩
  | none => ⟨.eof, .point 0, 1, 1, 0⟩

/-- The unit of durations that an identifier names. -/
def TokenKind.unit? : TokenKind → Option DurationUnit
  | .ident name => DurationUnit.ofWord? name
  | _ => none

/-- Whether a token is the given word, in any letter case. -/
def TokenKind.isWord (word : String) : TokenKind → Bool
  | .ident name => name.toList.map Char.toLower = word.toList.map Char.toLower
  | _ => false

/-- The tokens that lie ahead, and the end of input behind them. -/
structure Cursor where
  rest : List Token
  last : Token

namespace Cursor

/-- The start of a list of tokens. -/
def ofTokens (tokens : List Token) : Cursor := ⟨tokens, .endOf tokens⟩

/-- The current token. -/
def current (c : Cursor) : Token := c.rest.headD c.last

/-- The kind of the token behind the current one. -/
def next (c : Cursor) : TokenKind := (c.rest.tail.headD c.last).kind

/-- Whether no token is left. -/
def isAtEnd (c : Cursor) : Bool := c.current.kind = .eof

/-- The place behind the current token; there is none behind the end. -/
def advance (c : Cursor) : Cursor := { c with rest := c.rest.tail }

/-- Whether the current token is of the class of `kind`. -/
def check (c : Cursor) (kind : TokenKind) : Bool := c.current.kind.sameClass kind

/-- The place behind the current token if that is of the class of `kind`, with whether
it is. -/
def eat (c : Cursor) (kind : TokenKind) : Bool × Cursor :=
  if c.check kind then (true, c.advance) else (false, c)

/-- Whether the current token is the given word, in any letter case. -/
def checkWord (c : Cursor) (word : String) : Bool := c.current.kind.isWord word

end Cursor

end RuleLang
