import RuleLang.Text.Position
import RuleLang.Token.Fault
import RuleLang.Token.Symbol

/-!
# Lexemes

The division of an expression's text into lexemes.  At every place the longest lexeme
is taken, and blanks between lexemes are dropped; what the literals among them stand
for is found out later.  `lexeme?` takes one lexeme and `lexemes` all of them.
-/

namespace RuleLang

/-- What a lexeme is by its first characters. -/
inductive LexemeKind where
  | symbol (s : Symbol)
  | word
  | truth (b : Bool)
  | integer
  | decimal
  | string
  | date
deriving DecidableEq, Repr

/-- A lexeme, its characters and the place where it begins. -/
structure Lexeme where
  kind : LexemeKind
  text : List Char
  start : Position
deriving DecidableEq, Repr

namespace Lexeme

/-- The place behind a lexeme. -/
def stop (l : Lexeme) : Position := l.start.advanceBy l.text

/-- The bytes that a lexeme covers. -/
def span (l : Lexeme) : Span := ⟨l.start.offset, l.stop.offset⟩

/-- The blanks that may stand between lexemes. -/
def isSeparator (c : Char) : Bool := c = ' ' ∨ c = '\t' ∨ c = '\r' ∨ c = '\n'

/-- The ASCII letters and the underscore, with which words begin. -/
def isWordStart (c : Char) : Bool := c.isAlpha || c = '_'

/-- The characters of words. -/
def isWordChar (c : Char) : Bool := isWordStart c || c.isDigit

/-- What a word is.  The words of symbols and of truth values are known in any letter
case. -/
def wordKind (word : List Char) : LexemeKind :=
  let lower := word.map Char.toLower
  match Symbol.words.lookup lower with
  | some s => .symbol s
  | none =>
    if lower = ['t', 'r', 'u', 'e'] then .truth true
    else if lower = ['f', 'a', 'l', 's', 'e'] then .truth false
    else .word

/-- The digits of an exponent with its mark and its sign, or nothing. -/
def exponentPart (cs : List Char) : List Char :=
  match cs with
  | 'e' :: rest | 'E' :: rest =>
    let sign := match rest with
      | '+' :: _ | '-' :: _ => rest.take 1
      | _ => []
    let digits := (rest.drop sign.length).takeWhile Char.isDigit
    if digits.isEmpty then [] else cs.take 1 ++ sign ++ digits
  | _ => []

/-- The number at the front of a text that begins with a digit.  A point belongs to it
only when a digit follows. -/
def numberPart (cs : List Char) : LexemeKind × List Char :=
  let whole := cs.takeWhile Char.isDigit
  match cs.drop whole.length with
  | '.' :: rest =>
    let fraction := rest.takeWhile Char.isDigit
    if fraction.isEmpty then (.integer, whole)
    else
      (.decimal, whole ++ '.' :: (fraction ++ exponentPart (rest.drop fraction.length)))
  | _ => (.integer, whole)

/-- The inside of a string up to its closing quote, and whether there is one.  A
backslash takes the character behind it along, unless that begins a line. -/
def stringPart (quote : Char) : List Char → List Char × Bool
  | [] => ([], false)
  | ['\\'] => ([], false)
  | c :: d :: rest =>
    if c = quote then ([], true)
    else if c = '\\' then
      if d = '\n' then ([], false)
      else
        let (inside, closed) := stringPart quote rest
        (c :: d :: inside, closed)
    else
      let (inside, closed) := stringPart quote (d :: rest)
      (c :: inside, closed)
  | [c] => if c = quote then ([], true) else ([c], false)

/-- The lexeme at the front of a text that begins with the character `c`, or the fault
there with the characters at fault. -/
def take (c : Char) (rest : List Char) :
    Except (LexFault × List Char) (LexemeKind × List Char) :=
  if isWordStart c then
    let word := c :: rest.takeWhile isWordChar
    .ok (wordKind word, word)
  else if c.isDigit then .ok (numberPart (c :: rest))
  else if c = '"' ∨ c = '\'' then
    match stringPart c rest with
    | (inside, true) => .ok (.string, c :: (inside ++ [c]))
    | (inside, false) => .error (.openString, c :: inside)
  else if c = '#' then
    let inside := rest.takeWhile fun d => d ≠ '#' ∧ d ≠ '\n'
    if (rest.drop inside.length).head? = some '#' then .ok (.date, c :: (inside ++ ['#']))
    else .error (.openDate, c :: inside)
  else
    match Symbol.spellings.find? (·.1.isPrefixOf (c :: rest)) with
    | some (text, s) => .ok (.symbol s, text)
    | none => .error (.stray c, [c])

/-- The lexemes of a text that begins at `p`, with the place behind the text.  Every
lexeme and every separator takes a character, so the length of the text is `fuel`
enough. -/
def scan (fuel : Nat) (p : Position) (cs : List Char) :
    Except (Located LexFault) (List Lexeme × Position) :=
  match fuel, cs with
  | _, [] => .ok ([], p)
  | 0, _ => .ok ([], p)
  | fuel + 1, c :: rest =>
    if isSeparator c then scan fuel (p.advance c) rest
    else
      match take c rest with
      | .ok (kind, text) => do
        let l : Lexeme := ⟨kind, text, p⟩
        let (ls, stop) ← scan fuel l.stop ((c :: rest).drop text.length)
        return (l :: ls, stop)
      | .error (fault, text) =>
        .error ⟨fault, ⟨p.offset, (p.advanceBy text).offset⟩, p.line, p.column⟩

end Lexeme

/-- The lexemes of a text, with the place behind it. -/
def lexemes (cs : List Char) : Except (Located LexFault) (List Lexeme × Position) :=
  Lexeme.scan cs.length {} cs

end RuleLang
