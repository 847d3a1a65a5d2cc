import RuleLang.Eval.Error

/-!
# Parts of values

The property of a map, the part that a key names, and membership.  What is not there is
undefined.
-/

namespace RuleLang.Value

/-- The property of a map with the given name. -/
def property (name : String) : Value → Value
  | map entries => (Keyed.find? (MapKey.str name) entries).getD undefined
  | _ => undefined

/-- The part of a value that a key names: an entry of a map, an item of a list or a
character of a string, counted from zero. -/
def part? : Value → Value → Except EvalError (Option Value)
  | map entries, str k => return Keyed.find? (.str k) entries
  | _, str _ => return none
  | list items, int i => return if 0 ≤ i then items[i.toInt.toNat]? else none
  | str s, int i =>
    return if 0 ≤ i then (s.toList[i.toInt.toNat]?).map fun c => str c.toString else none
  | map entries, int i => return Keyed.find? (.int i) entries
  | _, int _ => return none
  | _, key => throw (.mismatch .index [key])

/-- The part of a value that a key names, or undefined. -/
def index (base key : Value) : Except EvalError Value :=
  if base.isUndefined || key.isUndefined then return undefined
  else do
    let found ← part? base key
    return found.getD undefined

/-- Whether `needle` stands somewhere in a text. -/
def hasInfix (needle : List Char) : List Char → Bool
  | [] => needle.isEmpty
  | c :: cs => needle.isPrefixOf (c :: cs) || hasInfix needle cs

/-- Whether a list has an item loosely equal to the given one, a string has it as a part,
or a map has it as a key. -/
def contains (collection item : Value) : Except EvalError Value :=
  if collection.isUndefined || item.isUndefined then return undefined
  else
    match collection, item with
    | list items, item => return bool (items.any (·.looseEq item))
    | str s, str t => return bool (hasInfix t.toList s.toList)
    | str _, item => throw (.mismatch .searchString [item])
    | map entries, str s => return bool (Keyed.contains (MapKey.str s) entries)
    | map entries, int n => return bool (Keyed.contains (MapKey.int n) entries)
    | map _, item => throw (.mismatch .lookUpKey [item])
    | collection, _ => throw (.mismatch .membership [collection])

/-- The result of a test of membership. -/
def membership : MembershipOp → Value → Value → Except EvalError Value
  | .isIn, item, collection => contains collection item
  | .contains, collection, item => contains collection item

end RuleLang.Value
