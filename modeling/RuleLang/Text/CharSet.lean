/-!
# Sets of characters

A set of characters is given by the code points at which membership changes: from the
first of them on characters belong to the set, from the second on they do not, and so
on by turns.
-/

namespace RuleLang.Text

/-- The code points, in increasing order, at which membership in a set changes. -/
abbrev CharSet := List Nat

/-- Whether a character belongs to a set: an odd number of changes lies at or before
it. -/
def CharSet.contains (s : CharSet) (c : Char) : Bool :=
  (s.takeWhile (· ≤ c.toNat)).length % 2 = 1

end RuleLang.Text
