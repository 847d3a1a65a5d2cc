import RuleLang.Token.Basic

/-!
# Faults in the structure of an expression

What keeps tokens from forming an expression, and the wording of it.  Most faults name
the token that was found instead of the expected one.
-/

namespace RuleLang

/-- A construct that needs a closing symbol. -/
inductive Enclosure where
  | list
  | object
  | bracketAccess
deriving DecidableEq, Repr

namespace Enclosure

/-- The symbol that closes a construct. -/
def closing : Enclosure → Symbol
  | list | bracketAccess => .rightBracket
  | object => .rightBrace

/-- The name of a construct. -/
def name : Enclosure → String
  | list => "list"
  | object => "object"
  | bracketAccess => "bracket access"

end Enclosure

/-- Why tokens form no expression. -/
inductive ParseFault where
  | tooDeep (limit : Nat)
  | noExpression (found : TokenKind)
  | trailing (found : TokenKind)
  | openParen (line column : Nat) (found : TokenKind)
  | openEnclosure (construct : Enclosure) (found : TokenKind)
  | openArguments (name : String) (found : TokenKind)
  | noArguments (name : String) (found : TokenKind)
  | badKey (found : TokenKind)
  | noColon (key : String) (found : TokenKind)
  | noProperty (found : TokenKind)
  | noPath
  | noNow (found : TokenKind)
  | fractionalAmount
deriving DecidableEq, Repr

/-- The wording of a fault. -/
def ParseFault.message : ParseFault → String
  | tooDeep limit => "expression nesting exceeds the maximum depth of " ++ toString limit
  | noExpression found => "expected expression, found " ++ found.describe
  | trailing found => "unexpected token " ++ found.describe ++ " after expression"
  | openParen line column found =>
    "expected ')' to close '(' opened at line " ++ toString line ++ ", column "
      ++ toString column ++ ", found " ++ found.describe
  | openEnclosure construct found =>
    "expected '" ++ construct.closing.name ++ "' to close " ++ construct.name ++ ", found "
      ++ found.describe
  | openArguments name found =>
    "expected ',' or ')' in arguments to '" ++ name ++ "', found " ++ found.describe
  | noArguments name found =>
    "expected '(' after function name '" ++ name ++ "', found " ++ found.describe
  | badKey found => "object key must be an identifier or string, found " ++ found.describe
  | noColon key found =>
    "expected ':' after object key '" ++ key ++ "', found " ++ found.describe
  | noProperty found => "expected property name after '.', found " ++ found.describe
  | noPath => "qualified function call requires a dotted identifier path"
  | noNow found => "expected 'now' after 'from', found " ++ found.describe
  | fractionalAmount => "duration amount must be an integer"

/-- What went wrong in reading an expression. -/
abbrev ParseError := Located ParseFault

/-- A fault at a token. -/
def ParseFault.located (fault : ParseFault) (t : Token) : ParseError :=
  ⟨fault, t.span, t.line, t.column⟩

end RuleLang
