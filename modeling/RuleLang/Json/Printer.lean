import RuleLang.Json.Basic
import RuleLang.Json.Escape
import RuleLang.Number.Notation

/-!
# The text of JSON documents

A document is written on one line without blanks, its objects in the order of their
entries.
-/

namespace RuleLang.Json

mutual

/-- The text of a document. -/
def chars : Json → List Char
  | null => "null".toList
  | bool b => (if b then "true" else "false").toList
  | int n => (toString n).toList
  | float x => (FloatNotation.document.write x).toList
  | str s => quote s.toList
  | arr items => '[' :: itemChars items
  | obj entries => '\x7b' :: entryChars entries

/-- The items of an array, up to its closing bracket. -/
def itemChars : List Json → List Char
  | [] => [']']
  | [j] => j.chars ++ [']']
  | j :: rest => j.chars ++ ',' :: itemChars rest

/-- The entries of an object, up to its closing brace. -/
def entryChars : List (String × Json) → List Char
  | [] => ['\x7d']
  | [(k, j)] => quote k.toList ++ ':' :: (j.chars ++ ['\x7d'])
  | (k, j) :: rest => quote k.toList ++ ':' :: (j.chars ++ ',' :: entryChars rest)

end

/-- The text of a document. -/
def text (j : Json) : String := String.ofList j.chars

end RuleLang.Json
