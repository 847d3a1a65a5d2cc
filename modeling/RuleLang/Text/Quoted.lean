import RuleLang.Text.PrintableTable

/-!
# Quoted text

The form in which a text is shown inside another value: between double quotes, with
every quote, backslash and character that cannot be seen by itself written as an escape.
-/

namespace RuleLang.Text

/-- The characters that are written with a letter after a backslash, each with its
letter. -/
def letterEscapes : List (Char × Char) :=
  [('\x00', '0'), ('\t', 't'), ('\r', 'r'), ('\n', 'n'), ('\\', '\\'), ('"', '"')]

/-- Whether a character can be seen by itself: it leaves a mark, also where a font has none
for it, and takes a place of its own. -/
def isVisible (c : Char) : Bool :=
  !(unprintable.contains c || defaultIgnorable.contains c ||
    (graphemeExtend.contains c && !halfwidthSoundMark.contains c))

/-- The form of a character between quotes. -/
def quotedChar (c : Char) : List Char :=
  match letterEscapes.lookup c with
  | some letter => ['\\', letter]
  | none =>
    if isVisible c then [c]
    else '\\' :: 'u' :: '\x7b' :: (Nat.toDigits 16 c.toNat ++ ['\x7d'])

/-- A text between double quotes. -/
def quoted (cs : List Char) : List Char :=
  '"' :: (cs.flatMap quotedChar ++ ['"'])

end RuleLang.Text
