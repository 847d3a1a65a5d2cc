/-!
# Faults in the text of an expression

What keeps a text from being divided into tokens, and the wording of it.
-/

namespace RuleLang

/-- Why a text cannot be divided into tokens. -/
inductive LexFault where
  | openString
  | openDate
  | badEscape (c : Char)
  | badDate (text : String)
  | badDateTime (text : String)
  | integerRange (text : String)
  | floatRange (text : String)
  | stray (c : Char)
deriving DecidableEq, Repr

/-- The wording of a fault. -/
def LexFault.message : LexFault → String
  | openString => "unterminated string literal"
  | openDate => "unterminated date literal"
  | badEscape c => "invalid escape sequence '\\" ++ c.toString ++ "'"
  | badDate text => "invalid date literal '" ++ text ++ "'"
  | badDateTime text => "invalid datetime literal '" ++ text ++ "'"
  | integerRange text => "integer literal '" ++ text ++ "' is out of range"
  | floatRange text => "invalid float literal '" ++ text ++ "'"
  | stray c => "unexpected character '" ++ c.toString ++ "'"

end RuleLang
