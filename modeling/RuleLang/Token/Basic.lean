import RuleLang.Calendar.Printer
import RuleLang.Number.Notation
import RuleLang.Number.Word
import RuleLang.Text.Position
import RuleLang.Text.Quoted
import RuleLang.Token.Symbol

/-!
# Tokens

A token is a piece of an expression's text with its place.  `TokenKind.describe` is the
form in which error messages show one.
-/

namespace RuleLang

/-- What a token is. -/
inductive TokenKind where
  | int (n : Int64)
  | float (x : Float)
  | str (s : String)
  | bool (b : Bool)
  | date (d : Date)
  | dateTime (t : DateTime)
  | ident (name : String)
  /-- A name that an opening parenthesis follows. -/
  | functionName (name : String)
  | symbol (s : Symbol)
  | eof
deriving DecidableEq, Repr

namespace TokenKind

/-- The name of the class of a token, which for a symbol is the symbol. -/
def name : TokenKind → String
  | int _ => "integer"
  | float _ => "float"
  | str _ => "string"
  | bool _ => "boolean"
  | date _ => "date"
  | dateTime _ => "datetime"
  | ident _ => "identifier"
  | functionName _ => "function name"
  | symbol s => s.name
  | eof => "end of input"

/-- Whether two tokens are of one class. -/
def sameClass (a b : TokenKind) : Bool := a.name = b.name

/-- A token as error messages show it. -/
def describe : TokenKind → String
  | int n => "integer " ++ Word.text n
  | float x => "float " ++ FloatNotation.plain.write x
  | str s => "string " ++ String.ofList (Text.quoted s.toList)
  | bool b => "boolean " ++ toString b
  | date d => "date #" ++ String.ofList d.text ++ "#"
  | dateTime t => "datetime #" ++ String.ofList t.text ++ "#"
  | ident name => "identifier '" ++ name ++ "'"
  | functionName name => "function name '" ++ name ++ "'"
  | symbol s => "'" ++ s.name ++ "'"
  | eof => "end of input"

end TokenKind

/-- A piece of a text: what it is, the bytes it covers, the line and the column at which
it begins, and its number of characters. -/
structure Token where
  kind : TokenKind
  span : Span
  line : Nat
  column : Nat
  length : Nat
deriving DecidableEq, Repr

end RuleLang
