import RuleLang.Text.CaseTable

/-!
# Changing letter case

`lower` and `upper` map a text character by character, ASCII letters by core's maps and
the others by the tables.  A capital sigma that ends a word has a lower case of its own:
it ends a word when a cased letter stands before it and none behind it, characters
ignored by case apart.
-/

namespace RuleLang.Text

/-- The characters that `c` becomes by the given runs and expansions. -/
def mapCase (runs : List CaseRun) (expansions : List (Nat × List Nat)) (c : Char) :
    List Char :=
  match expansions.lookup c.toNat with
  | some several => several.map Char.ofNat
  | none =>
    match runs.find? (·.contains c.toNat) with
    | some run => [Char.ofNat (c.toNat + run.shift).toNat]
    | none => [c]

/-- The upper case of a character. -/
def upperChar (c : Char) : List Char :=
  if c.toNat < 128 then [c.toUpper] else mapCase upperRuns upperExpansions c

/-- The lower case of a character that stands alone. -/
def lowerChar (c : Char) : List Char :=
  if c.toNat < 128 then [c.toLower] else mapCase lowerRuns lowerExpansions c

/-- Whether the first character that case does not ignore is cased. -/
def startsCased (cs : List Char) : Bool :=
  match cs.dropWhile caseIgnorable.contains with
  | [] => false
  | c :: _ => cased.contains c

/-- The lower case of a capital sigma between `before`, in reverse, and `after`. -/
def lowerSigma (before after : List Char) : Char :=
  if startsCased before ∧ ¬startsCased after then '\u03c2' else '\u03c3'

/-- The lower case of a text. -/
def lower (cs : List Char) : List Char := go [] cs
where
  /-- The lower case of a text that continues `before`, given in reverse. -/
  go (before : List Char) : List Char → List Char
    | [] => []
    | c :: rest =>
      (if c = '\u03a3' then [lowerSigma before rest] else lowerChar c) ++ go (c :: before) rest

/-- The upper case of a text. -/
def upper (cs : List Char) : List Char := cs.flatMap upperChar

end RuleLang.Text
