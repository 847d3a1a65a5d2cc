import RuleLang.Keyed

/-!
# JSON documents

A JSON document as a tree.  Numbers are exact integers between `-2 ^ 63` and `2 ^ 64`,
or finite floats; the entries of an object have increasing keys.
-/

namespace RuleLang

/-- A JSON document. -/
inductive Json where
  | null
  | bool (b : Bool)
  | int (n : Int)
  | float (x : Float)
  | str (s : String)
  | arr (items : List Json)
  | obj (entries : List (String × Json))

end RuleLang
