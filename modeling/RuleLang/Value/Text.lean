import RuleLang.Calendar.Printer
import RuleLang.Number.Notation
import RuleLang.Text.Quoted
import RuleLang.Value.Basic

/-!
# The texts of values

How a value is shown, and how it becomes part of a string.  A string is shown as it is,
and in quotes inside a list or a map.
-/

namespace RuleLang

/-- The text of a key. -/
def MapKey.text : MapKey → String
  | str s => s
  | int n => Word.text n

namespace Value

mutual

/-- The text of a value, where `inner` says whether it is inside a list or a map. -/
def charsWithin (inner : Bool) : Value → List Char
  | int n => (Word.text n).toList
  | float x => (FloatNotation.fractional.write x).toList
  | str s => if inner then Text.quoted s.toList else s.toList
  | bool b => (toString b).toList
  | list items => '[' :: (itemChars items ++ [']'])
  | map entries => '\x7b' :: (entryChars entries ++ ['\x7d'])
  | date d => d.text
  | dateTime t => t.text
  | duration d => d.text.toList
  | undefined => "undefined".toList

/-- Values with commas between them. -/
def itemChars : List Value → List Char
  | [] => []
  | [v] => v.charsWithin true
  | v :: rest => v.charsWithin true ++ ',' :: ' ' :: itemChars rest

/-- Entries with commas between them. -/
def entryChars : List (MapKey × Value) → List Char
  | [] => []
  | [(k, v)] => k.text.toList ++ ':' :: ' ' :: v.charsWithin true
  | (k, v) :: rest =>
    k.text.toList ++ ':' :: ' ' :: (v.charsWithin true ++ ',' :: ' ' :: entryChars rest)

end

/-- The text of a value. -/
def text (v : Value) : String := String.ofList (v.charsWithin false)

end Value

end RuleLang
