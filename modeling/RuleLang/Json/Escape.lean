/-!
# Escapes of JSON strings

Between quotes a quote, a backslash and the controls are written with a backslash: the
ones in `Json.shortEscapes` by a letter, the other controls by four hexadecimal
digits.
-/

namespace RuleLang.Json

/-- The characters that are written with a letter after a backslash, each with its
letter. -/
def shortEscapes : List (Char × Char) :=
  [('"', '"'), ('\\', '\\'), ('\x08', 'b'), ('\x0c', 'f'), ('\n', 'n'), ('\r', 'r'),
    ('\t', 't')]

/-- The digits of `n` below 65536 as four hexadecimal digits. -/
def hexText (n : Nat) : List Char :=
  [n / 4096 % 16, n / 256 % 16, n / 16 % 16, n % 16].map Nat.digitChar

/-- The text of a character between quotes. -/
def escapeChar (c : Char) : List Char :=
  match shortEscapes.lookup c with
  | some letter => ['\\', letter]
  | none => if c.toNat < 32 then '\\' :: 'u' :: hexText c.toNat else [c]

/-- The text of a string, with its quotes. -/
def quote (s : List Char) : List Char :=
  '"' :: (s.flatMap escapeChar ++ ['"'])

/-- The value of a hexadecimal digit. -/
def hexDigit? (c : Char) : Option Nat :=
  if '0' ≤ c ∧ c ≤ '9' then some (c.toNat - '0'.toNat)
  else if 'a' ≤ c ∧ c ≤ 'f' then some (c.toNat - 'a'.toNat + 10)
  else if 'A' ≤ c ∧ c ≤ 'F' then some (c.toNat - 'A'.toNat + 10)
  else none

/-- The number written by four hexadecimal digits, and the text behind them. -/
def hexUnit? : List Char → Option (Nat × List Char)
  | a :: b :: c :: d :: rest => do
    let a ← hexDigit? a
    let b ← hexDigit? b
    let c ← hexDigit? c
    let d ← hexDigit? d
    return (4096 * a + 256 * b + 16 * c + d, rest)
  | _ => none

/-- The character written by the sixteen-bit units after `\u`, and the text behind
them.  A unit of the high surrogates takes the unit of a low surrogate with it; no
other surrogate writes a character. -/
def unicodeEscape? (cs : List Char) : Option (Char × List Char) := do
  let (high, rest) ← hexUnit? cs
  if 0xD800 ≤ high ∧ high < 0xDC00 then
    match rest with
    | '\\' :: 'u' :: rest =>
      let (low, rest) ← hexUnit? rest
      if 0xDC00 ≤ low ∧ low < 0xE000 then
        return (Char.ofNat (0x10000 + 1024 * (high - 0xD800) + (low - 0xDC00)), rest)
      else none
    | _ => none
  else if 0xDC00 ≤ high ∧ high < 0xE000 then none
  else return (Char.ofNat high, rest)

/-- The character that the text after a backslash stands for, and the text behind it. -/
def escape? : List Char → Option (Char × List Char)
  | [] => none
  | '/' :: rest => some ('/', rest)
  | 'u' :: rest => unicodeEscape? rest
  | letter :: rest =>
    (shortEscapes.find? (·.2 = letter)).map fun entry => (entry.1, rest)

/-- The first character of the inside of a string, and the text behind it. -/
def stringChar? : List Char → Option (Char × List Char)
  | [] => none
  | '\\' :: rest => escape? rest
  | c :: rest => if c.toNat < 32 then none else some (c, rest)

/-- The inside of a string up to its closing quote, and the text behind that.  Every
character of it takes one from the text, so its length is `fuel` enough. -/
def unquote? (fuel : Nat) (cs : List Char) : Option (List Char × List Char) :=
  match fuel, cs with
  | _, '"' :: rest => some ([], rest)
  | 0, _ => none
  | fuel + 1, cs => do
    let (c, rest) ← stringChar? cs
    let (s, rest) ← unquote? fuel rest
    return (c :: s, rest)

end RuleLang.Json
