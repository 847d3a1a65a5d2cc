import RuleLang.Eval.Machine
import RuleLang.Expr.Basic
import RuleLang.Program.Lowering

/-!
# Direct evaluation

`Expr.evaluate` is the value of an expression in an environment, read off its tree without
a program and a stack.  The parts of an expression are evaluated from left to right, and the
first failure is the failure of the whole.  `Expr.width` is the number of entries of the
largest list, object or call of an expression.
-/

namespace RuleLang

/-- The value of a dotted path.  Under strict options it must not be undefined. -/
def Environment.variable (env : Environment) (path : String) : Except EvalError Value :=
  match env.context.resolve path with
  | .undefined => if env.options.strict then throw (.undefinedVariable path) else return .undefined
  | v => return v

/-- The result of a prefix operator. -/
def Value.unary : UnaryOp → Value → Except EvalError Value
  | .minus, v => v.negate
  | .bang, v => v.not

/-- The date-time that lies the length of a value before or after the present; that of an
undefined value is undefined. -/
def Value.fromPresent (present : DateTime) (direction : Direction) :
    Value → Except EvalError Value
  | duration d => Value.relative present direction d
  | undefined => return undefined
  | v => throw (.mismatch .relative [v])

namespace Expr

mutual

/-- The value of an expression. -/
def evaluate (env : Environment) : Expr → Except EvalError Value
  | literal l => return l.toValue
  | var name => env.variable name
  | property base name =>
    match (property base name).path? with
    | some path => env.variable path
    | none => do return (← base.evaluate env).property name
  | index base key => do Value.index (← base.evaluate env) (← key.evaluate env)
  | compare op l r => do return Value.compare op (← l.evaluate env) (← r.evaluate env)
  | arithmetic op l r => do Value.arithmetic op (← l.evaluate env) (← r.evaluate env)
  | unary op e => do Value.unary op (← e.evaluate env)
  | and l r => do Value.and (← l.evaluate env) (← r.evaluate env)
  | or l r => do Value.or (← l.evaluate env) (← r.evaluate env)
  | not e => do Value.not (← e.evaluate env)
  | membership op l r => do Value.membership op (← l.evaluate env) (← r.evaluate env)
  | list items => do return .list (← evaluateItems env items)
  | object entries => do return .map (Keyed.ofList (← evaluateEntries env entries))
  | call name args => do
    env.functions.call name (← evaluateItems env args) env.context env.clock
  | duration parts => Value.ofDuration? .duration (Duration.ofParts? parts)
  | relative d direction => do Value.fromPresent env.present direction (← d.evaluate env)

/-- The values of several expressions. -/
def evaluateItems (env : Environment) : List Expr → Except EvalError (List Value)
  | [] => return []
  | e :: rest => do
    let v ← e.evaluate env
    let vs ← evaluateItems env rest
    return v :: vs

/-- The keys of an object with their values. -/
def evaluateEntries (env : Environment) :
    List (String × Expr) → Except EvalError (List (MapKey × Value))
  | [] => return []
  | (key, e) :: rest => do
    let v ← e.evaluate env
    let entries ← evaluateEntries env rest
    return (.str key, v) :: entries

end

mutual

/-- The number of entries of the largest list, object or call. -/
def width : Expr → Nat
  | literal _ | var _ | duration _ => 0
  | property e _ | unary _ e | not e | relative e _ => e.width
  | index l r | compare _ l r | arithmetic _ l r | and l r | or l r | membership _ l r =>
    max l.width r.width
  | list items | call _ items => max items.length (itemsWidth items)
  | object entries => max entries.length (entriesWidth entries)

/-- The greatest width of several expressions. -/
def itemsWidth : List Expr → Nat
  | [] => 0
  | e :: rest => max e.width (itemsWidth rest)

/-- The greatest width of the values of an object. -/
def entriesWidth : List (String × Expr) → Nat
  | [] => 0
  | (_, e) :: rest => max e.width (entriesWidth rest)

end

/-- A width of a list bounds those of its items. -/
theorem width_le_itemsWidth
    {items : List Expr} {e : Expr} (h : e ∈ items) :
  e.width ≤ itemsWidth items
  := by
  induction items with
  | nil => cases h
  | cons e' items ih =>
    rw [itemsWidth]
    obtain rfl | h := List.mem_cons.mp h
    · apply Nat.le_max_left
    · apply Nat.le_trans (ih h)
      apply Nat.le_max_right

/-- A width of an object bounds those of its values. -/
theorem width_le_entriesWidth
    {entries : List (String × Expr)} {entry : String × Expr} (h : entry ∈ entries) :
  entry.2.width ≤ entriesWidth entries
  := by
  induction entries with
  | nil => cases h
  | cons entry' entries ih =>
    rw [entriesWidth]
    obtain rfl | h := List.mem_cons.mp h
    · apply Nat.le_max_left
    · apply Nat.le_trans (ih h)
      apply Nat.le_max_right

end Expr

end RuleLang
