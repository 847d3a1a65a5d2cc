import RuleLang.Json.Basic
import RuleLang.Json.Escape
import RuleLang.Number.Scaling

/-!
# Reading JSON documents

`Json.read?` reads a document, with blanks anywhere between its parts.  Arrays and
objects may lie 127 deep; of two entries of an object with one key the later one
counts; a number that is no integer has the float that its first 64 bits scale to, and is
refused if that is out of range.
-/

namespace RuleLang.Json

/-- A reader of a prefix of a text. -/
abbrev Scan := StateT (List Char) Option

/-- The text from its first character that is no blank. -/
def skipBlanks (cs : List Char) : List Char :=
  cs.dropWhile fun c => c = ' ' ∨ c = '\t' ∨ c = '\n' ∨ c = '\r'

/-- The digits at the front of a text, at least one. -/
def digits : Scan (List Char) := fun cs =>
  let taken := cs.takeWhile Char.isDigit
  if taken.isEmpty then none else some (taken, cs.drop taken.length)

/-- The digits behind a point, or none. -/
def fraction : Scan (List Char) := fun
  | '.' :: cs => digits cs
  | cs => some ([], cs)

/-- The number behind the mark of an exponent, or none. -/
def exponent : Scan (Option Int) := fun
  | [] => some (none, [])
  | c :: cs =>
    if c = 'e' ∨ c = 'E' then do
      let (negative, cs) := match cs with
        | '-' :: cs => (true, cs)
        | '+' :: cs => (false, cs)
        | cs => (false, cs)
      let (taken, cs) ← digits cs
      let n : Int := digitsValue taken
      return (some (if negative then -n else n), cs)
    else some (none, c :: cs)

/-- The number with the given sign and digits.  It is an integer if it has neither
fraction nor exponent, fits and is not negative zero. -/
def ofNumber? (negative : Bool) (whole fraction : List Char) (exponent : Option Int) :
    Option Json :=
  let n : Int := digitsValue whole
  if fraction.isEmpty ∧ exponent.isNone ∧ ¬negative ∧ n < 18446744073709551616 then some (int n)
  else if fraction.isEmpty ∧ exponent.isNone ∧ negative ∧ 0 < n ∧ n ≤ 9223372036854775808 then
    some (int (-n))
  else
    ((Decimal.ofWord whole fraction (exponent.getD 0)).scaled? negative).map float

/-- A number: an optional minus sign, digits without a needless zero before them, and
an optional fraction and exponent. -/
def number : Scan Json := fun cs => do
  let (negative, cs) := match cs with
    | '-' :: cs => (true, cs)
    | cs => (false, cs)
  let (whole, cs) ← digits cs
  if whole.head? = some '0' ∧ 1 < whole.length then none
  let (fraction, cs) ← fraction cs
  let (exponent, cs) ← exponent cs
  let j ← ofNumber? negative whole fraction exponent
  return (j, cs)

/-- Items read by `item` with commas between them, up to the character `close`.  Every
item takes a character from the text, so its length is `fuel` enough. -/
def sequence {α : Type} (item : Scan α) (close : Char) (fuel : Nat) : Scan (List α) := fun cs =>
  match fuel with
  | 0 => none
  | fuel + 1 => do
    let (a, cs) ← item cs
    match skipBlanks cs with
    | [] => none
    | c :: cs =>
      if c = close then return ([a], cs)
      else if c = ',' then do
        let (rest, cs) ← sequence item close fuel cs
        return (a :: rest, cs)
      else none

/-- A sequence of items that may be empty. -/
def sequence? {α : Type} (item : Scan α) (close : Char) : Scan (List α) := fun cs =>
  match skipBlanks cs with
  | [] => none
  | c :: rest =>
    if c = close then return ([], rest) else sequence item close (c :: rest).length (c :: rest)

/-- The text `word`, standing for `j`. -/
def keyword (word : String) (j : Json) : Scan Json := fun cs =>
  if word.toList.isPrefixOf cs then some (j, cs.drop word.length) else none

/-- A string behind its opening quote. -/
def string : Scan String := fun cs => do
  let (s, cs) ← unquote? cs.length cs
  return (String.ofList s, cs)

/-- A key, a colon and a value. -/
def entry (value : Scan Json) : Scan (String × Json) := fun cs =>
  match skipBlanks cs with
  | '"' :: cs => do
    let (k, cs) ← string cs
    match skipBlanks cs with
    | ':' :: cs => do
      let (j, cs) ← value cs
      return ((k, j), cs)
    | _ => none
  | _ => none

/-- A document behind blanks whose arrays and objects lie less than `depth` deep. -/
def value : (depth : Nat) → Scan Json
  | 0 => fun _ => none
  | depth + 1 => fun cs =>
    match skipBlanks cs with
    | [] => none
    | '"' :: cs => do
      let (s, cs) ← string cs
      return (str s, cs)
    | '[' :: cs => do
      if depth = 0 then none
      let (items, cs) ← sequence? (value depth) ']' cs
      return (arr items, cs)
    | '\x7b' :: cs => do
      if depth = 0 then none
      let (entries, cs) ← sequence? (entry (value depth)) '\x7d' cs
      return (obj (Keyed.ofList entries), cs)
    | 'n' :: cs => keyword "ull" null cs
    | 't' :: cs => keyword "rue" (bool true) cs
    | 'f' :: cs => keyword "alse" (bool false) cs
    | c :: cs => number (c :: cs)

/-- One more than the number of arrays and objects that may lie in each other. -/
def depthLimit : Nat := 128

/-- The document that a text holds. -/
def read? (cs : List Char) : Option Json := do
  let (j, rest) ← value depthLimit cs
  if (skipBlanks rest).isEmpty then return j else none

end RuleLang.Json
