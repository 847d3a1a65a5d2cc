import RuleLang.Expr.Operator
import RuleLang.Value.Basic

/-!
# Comparison of values

A comparison is true, false, or undefined: it is undefined when an operand is, and where
the operands cannot be compared.  Durations are ordered by their approximate length.
-/

namespace RuleLang.Value

/-- The order of two floats, if both are numbers. -/
def floatOrder? (x y : Float) : Option Ordering :=
  if x < y then some .lt
  else if x == y then some .eq
  else if y < x then some .gt
  else none

/-- The order of two values that have one. -/
def order? : Value → Value → Option Ordering
  | int x, int y => some (Ord.compare x.toInt y.toInt)
  | str s, str t => some (Ord.compare s t)
  | bool a, bool b => some (Ord.compare a b)
  | date a, date b => some (Ord.compare a b)
  | dateTime a, dateTime b => some (Ord.compare a b)
  | duration a, duration b => some (Ord.compare a.approxMillis b.approxMillis)
  | a, b => do floatOrder? (← a.asFloat?) (← b.asFloat?)

/-- Strict equality, which tells kinds apart. -/
def strictEq (a b : Value) : Bool :=
  decide (a.kind = b.kind) && same a b

/-- Loose equality, if the values are of one kind or both numbers. -/
def looseEq? (a b : Value) : Option Bool :=
  if (a.asFloat?.isSome ∧ b.asFloat?.isSome) ∨ a.kind = b.kind then some (looseEq a b) else none

/-- A truth value, or undefined. -/
def ofBool? : Option Bool → Value
  | some b => bool b
  | none => undefined

/-- The result of a comparison. -/
def compare (op : CompareOp) (a b : Value) : Value :=
  if a.isUndefined || b.isUndefined then undefined
  else
    match op with
    | .strictEqual => bool (strictEq a b)
    | .strictNotEqual => bool (!strictEq a b)
    | .equal => ofBool? (looseEq? a b)
    | .notEqual => ofBool? ((looseEq? a b).map (!·))
    | .greater => ofBool? ((order? a b).map (·.isGT))
    | .greaterEqual => ofBool? ((order? a b).map (·.isGE))
    | .less => ofBool? ((order? a b).map (·.isLT))
    | .lessEqual => ofBool? ((order? a b).map (·.isLE))

end RuleLang.Value
