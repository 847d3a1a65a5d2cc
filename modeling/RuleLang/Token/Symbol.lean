/-!
# Symbols

The operators and punctuation of expressions, some of which are words, with all their
spellings.
-/

namespace RuleLang

/-- An operator or a punctuation mark. -/
inductive Symbol where
  | equal
  | strictEqual
  | notEqual
  | strictNotEqual
  | greater
  | greaterEqual
  | less
  | lessEqual
  | plus
  | minus
  | star
  | slash
  | percent
  | wordAnd
  | wordOr
  | wordNot
  | ampersands
  | bars
  | bang
  | wordIn
  | wordContains
  | leftParen
  | rightParen
  | leftBracket
  | rightBracket
  | leftBrace
  | rightBrace
  | colon
  | comma
  | dot
deriving DecidableEq, Repr

namespace Symbol

/-- The name of a symbol, which is one of its spellings. -/
def name : Symbol → String
  | equal => "="
  | strictEqual => "==="
  | notEqual => "!="
  | strictNotEqual => "!=="
  | greater => ">"
  | greaterEqual => ">="
  | less => "<"
  | lessEqual => "<="
  | plus => "+"
  | minus => "-"
  | star => "*"
  | slash => "/"
  | percent => "%"
  | wordAnd => "AND"
  | wordOr => "OR"
  | wordNot => "NOT"
  | ampersands => "&&"
  | bars => "||"
  | bang => "!"
  | wordIn => "IN"
  | wordContains => "CONTAINS"
  | leftParen => "("
  | rightParen => ")"
  | leftBracket => "["
  | rightBracket => "]"
  | leftBrace => "\x7b"
  | rightBrace => "\x7d"
  | colon => ":"
  | comma => ","
  | dot => "."

/-- The spellings that are no words, each before its own prefixes. -/
def spellings : List (List Char × Symbol) :=
  [(['=', '=', '='], strictEqual), (['!', '=', '='], strictNotEqual),
    (['=', '='], equal), (['!', '='], notEqual), (['<', '>'], notEqual),
    (['>', '='], greaterEqual), (['<', '='], lessEqual), (['&', '&'], ampersands),
    (['|', '|'], bars), (['='], equal), (['>'], greater), (['<'], less), (['+'], plus),
    (['-'], minus), (['*'], star), (['/'], slash), (['%'], percent), (['!'], bang),
    (['('], leftParen), ([')'], rightParen), (['['], leftBracket), ([']'], rightBracket),
    (['\x7b'], leftBrace), (['\x7d'], rightBrace), ([':'], colon), ([','], comma),
    (['.'], dot)]

/-- The symbols that are words, in lower case. -/
def words : List (List Char × Symbol) :=
  [(['a', 'n', 'd'], wordAnd), (['o', 'r'], wordOr), (['n', 'o', 't'], wordNot),
    (['i', 'n'], wordIn), (['c', 'o', 'n', 't', 'a', 'i', 'n', 's'], wordContains)]

end Symbol

end RuleLang
