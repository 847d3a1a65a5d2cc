import RuleLang.Eval.Error

/-!
# Logic of three values

Truth values with undefined as the third: an operand decides a conjunction or a
disjunction where it can, and else the result is undefined unless both are known.
-/

namespace RuleLang.Value

/-- A truth value, with nothing for undefined; any other value is a mismatch of both
operands. -/
def truth (what : Mismatch) (operands : List Value) : Value → Except EvalError (Option Bool)
  | bool b => return some b
  | undefined => return none
  | _ => throw (.mismatch what operands)

/-- The conjunction of two values. -/
def and (a b : Value) : Except EvalError Value := do
  let x ← truth .and [a, b] a
  let y ← truth .and [a, b] b
  match x, y with
  | some false, _ | _, some false => return bool false
  | some true, some true => return bool true
  | _, _ => return undefined

/-- The disjunction of two values. -/
def or (a b : Value) : Except EvalError Value := do
  let x ← truth .or [a, b] a
  let y ← truth .or [a, b] b
  match x, y with
  | some true, _ | _, some true => return bool true
  | some false, some false => return bool false
  | _, _ => return undefined

/-- The negation of a value. -/
def not : Value → Except EvalError Value
  | bool b => return bool (!b)
  | undefined => return undefined
  | v => throw (.mismatch .not [v])

end RuleLang.Value
