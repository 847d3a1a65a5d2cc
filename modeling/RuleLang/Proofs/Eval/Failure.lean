import RuleLang.Proofs.Eval.Direct
import RuleLang.Proofs.Expr.Induction
import RuleLang.Proofs.Outcome

/-!
# Failures of direct evaluation

Some failures lie with a program, which leaves the stack in a wrong state or holds an
instruction that nobody can carry out.  The operators, the functions and with them the
direct evaluation of an expression fail on account of values only, the operators on account
of their operands.
-/

namespace RuleLang

open Except (FailsWith)

/-- The failures that lie with a program and not with the values it meets. -/
def EvalError.OfProgram : EvalError → Prop
  | stackUnderflow .. | noResult | unbalancedStack _ | unknownOpcode _
  | invalidInstruction _ => True
  | _ => False

/-- The failures that lie with the operands of an operator alone. -/
def EvalError.OfOperands : EvalError → Prop
  | mismatch .. | divisionByZero | moduloByZero | integerOverflow _ | dateOutOfRange _ => True
  | _ => False

/-- A result that is no failure of a program. -/
abbrev OfValues {α : Type} (x : Except EvalError α) : Prop :=
  x.FailsWith fun e => ¬e.OfProgram

/-- A result that can fail only on account of operands. -/
abbrev OfOperands {α : Type} (x : Except EvalError α) : Prop :=
  x.FailsWith EvalError.OfOperands

/-- What fails on account of operands is no failure of a program. -/
theorem OfOperands.ofValues {α : Type} {x : Except EvalError α} (hx : OfOperands x) :
  OfValues x
  := by
  refine hx.mono ?_
  intro e he
  cases e with
  | mismatch | divisionByZero | moduloByZero | integerOverflow | dateOutOfRange => exact id
  | _ => cases he

namespace Value

/-! ### Operators -/

theorem ofOperands_truth
    (what : Mismatch) (operands : List Value) (v : Value) :
  OfOperands (truth what operands v)
  := by
  cases v
  case bool b => apply FailsWith.pure
  case undefined => apply FailsWith.pure
  all_goals exact FailsWith.throw trivial

theorem ofOperands_and
    (v w : Value) :
  OfOperands (v.and w)
  := by
  apply FailsWith.bind (ofOperands_truth _ _ _)
  intro x
  apply FailsWith.bind (ofOperands_truth _ _ _)
  intro y
  split <;> apply FailsWith.pure

theorem ofOperands_or
    (v w : Value) :
  OfOperands (v.or w)
  := by
  apply FailsWith.bind (ofOperands_truth _ _ _)
  intro x
  apply FailsWith.bind (ofOperands_truth _ _ _)
  intro y
  split <;> apply FailsWith.pure

theorem ofOperands_not
    (v : Value) :
  OfOperands v.not
  := by
  cases v
  case bool b => apply FailsWith.pure
  case undefined => apply FailsWith.pure
  all_goals exact FailsWith.throw trivial

theorem ofOperands_part?
    (v key : Value) :
  OfOperands (v.part? key)
  := by
  unfold part?
  split
  case h_7 => exact FailsWith.throw trivial
  all_goals apply FailsWith.pure

theorem ofOperands_index
    (v key : Value) :
  OfOperands (v.index key)
  := by
  apply FailsWith.ite
  · apply FailsWith.pure
  · apply FailsWith.bind (ofOperands_part? v key)
    intro found
    apply FailsWith.pure

theorem ofOperands_contains
    (collection item : Value) :
  OfOperands (collection.contains item)
  := by
  apply FailsWith.ite
  · apply FailsWith.pure
  · split
    case h_3 => exact FailsWith.throw trivial
    case h_6 => exact FailsWith.throw trivial
    case h_7 => exact FailsWith.throw trivial
    all_goals apply FailsWith.pure

theorem ofOperands_membership
    (op : MembershipOp) (v w : Value) :
  OfOperands (membership op v w)
  := by
  cases op with
  | isIn => apply ofOperands_contains
  | contains => apply ofOperands_contains

theorem ofOperands_ofWord?
    (site : OverflowSite) (n : Option Int64) :
  OfOperands (ofWord? site n)
  := by
  cases n with
  | none => exact FailsWith.throw trivial
  | some n => apply FailsWith.pure

theorem ofOperands_ofDuration?
    (site : OverflowSite) (d : Option Duration) :
  OfOperands (ofDuration? site d)
  := by
  cases d with
  | none => exact FailsWith.throw trivial
  | some d => apply FailsWith.pure

theorem ofOperands_floats
    {op : ArithmeticOp} {f : Float → Float → Except EvalError Value}
    (hf : ∀ x y, OfOperands (f x y)) (v w : Value) :
  OfOperands (floats op f v w)
  := by
  unfold floats
  split
  · apply hf
  · exact FailsWith.throw trivial

theorem ofOperands_shiftDate
    (move : DateMove) (moved : DateTime → Option DateTime) (d : Duration) (day : Date) :
  OfOperands (shiftDate move moved d day)
  := by
  unfold shiftDate
  split
  · apply FailsWith.pure
  · exact FailsWith.throw trivial

theorem ofOperands_shiftDateTime
    (move : DateMove) (moved : DateTime → Option DateTime) (t : DateTime) :
  OfOperands (shiftDateTime move moved t)
  := by
  unfold shiftDateTime
  split
  · apply FailsWith.pure
  · exact FailsWith.throw trivial

theorem ofOperands_add
    (v w : Value) :
  OfOperands (v.add w)
  := by
  unfold add
  split
  case h_1 => apply ofOperands_ofWord?
  case h_2 => apply FailsWith.pure
  case h_3 => apply FailsWith.pure
  case h_4 => apply ofOperands_ofDuration?
  case h_5 => apply ofOperands_shiftDate
  case h_6 => apply ofOperands_shiftDateTime
  case h_7 => apply ofOperands_shiftDate
  case h_8 => apply ofOperands_shiftDateTime
  case h_9 => apply ofOperands_floats (fun _ _ => FailsWith.pure _) _ _

theorem ofOperands_subtract
    (v w : Value) :
  OfOperands (v.subtract w)
  := by
  unfold subtract
  split
  case h_1 => apply ofOperands_ofWord?
  case h_2 => apply ofOperands_ofDuration?
  case h_3 => apply ofOperands_shiftDate
  case h_4 => apply ofOperands_shiftDateTime
  case h_9 => apply ofOperands_floats (fun _ _ => FailsWith.pure _) _ _
  all_goals apply FailsWith.pure

theorem ofOperands_multiply
    (v w : Value) :
  OfOperands (v.multiply w)
  := by
  unfold multiply
  split
  case h_1 => apply ofOperands_ofWord?
  case h_2 => apply ofOperands_ofDuration?
  case h_3 => apply ofOperands_ofDuration?
  case h_4 => apply ofOperands_floats (fun _ _ => FailsWith.pure _) _ _

theorem ofOperands_divide
    (v w : Value) :
  OfOperands (v.divide w)
  := by
  unfold divide
  split
  · refine FailsWith.ite (FailsWith.throw trivial) ?_
    split
    · exact FailsWith.throw trivial
    · apply FailsWith.pure
  · apply ofOperands_floats
    intro x y
    exact FailsWith.ite (FailsWith.throw trivial) (FailsWith.pure _)

theorem ofOperands_modulo
    (v w : Value) :
  OfOperands (v.modulo w)
  := by
  unfold modulo
  split
  · refine FailsWith.ite (FailsWith.throw trivial) ?_
    exact FailsWith.ite (FailsWith.throw trivial) (FailsWith.pure _)
  · apply ofOperands_floats
    intro x y
    exact FailsWith.ite (FailsWith.throw trivial) (FailsWith.pure _)

theorem ofOperands_arithmetic
    (op : ArithmeticOp) (v w : Value) :
  OfOperands (arithmetic op v w)
  := by
  cases op with
  | add => apply ofOperands_add
  | subtract => apply ofOperands_subtract
  | multiply => apply ofOperands_multiply
  | divide => apply ofOperands_divide
  | modulo => apply ofOperands_modulo

theorem ofOperands_unary
    (op : UnaryOp) (v : Value) :
  OfOperands (unary op v)
  := by
  cases op with
  | minus =>
    cases v
    case int n => apply ofOperands_ofWord?
    case float x => apply FailsWith.pure
    case duration d => apply ofOperands_ofDuration?
    all_goals exact FailsWith.throw trivial
  | bang => apply ofOperands_not

theorem ofOperands_fromPresent
    (present : DateTime) (direction : Direction) (v : Value) :
  OfOperands (fromPresent present direction v)
  := by
  cases v
  case duration d =>
    cases direction with
    | ago => apply ofOperands_shiftDateTime
    | fromNow => apply ofOperands_shiftDateTime
  case undefined => apply FailsWith.pure
  all_goals exact FailsWith.throw trivial

end Value

theorem Environment.ofValues_variable
    (env : Environment) (path : String) :
  OfValues (env.variable path)
  := by
  unfold Environment.variable
  split
  · exact FailsWith.ite (FailsWith.throw id) (FailsWith.pure _)
  · apply FailsWith.pure

/-- A call of a table fails on account of the name, the arguments or the function. -/
theorem FunctionTable.ofValues_call
    (t : FunctionTable) (name : String) (args : List Value) (context : Context)
    (clock : DateTime) :
  OfValues (t.call name args context clock)
  := by
  unfold call
  split
  · exact FailsWith.throw id
  · refine FailsWith.ite (FailsWith.throw id) ?_
    split
    · apply FailsWith.pure
    · exact FailsWith.throw id
    · exact FailsWith.throw id

/-- The entries of a map fail on account of a key. -/
theorem Instruction.failsWith_entriesOf
    (vs : List Value) :
  (entriesOf vs).FailsWith fun e => ∃ found, e = .invalidInstruction (.objectKey found)
  := by
  induction vs using entriesOf.induct with
  | case1 => apply FailsWith.pure
  | case2 => apply FailsWith.pure
  | case3 v rest s ih => exact ih.bind fun _ => FailsWith.pure _
  | case4 v rest n ih => exact ih.bind fun _ => FailsWith.pure _
  | case5 v rest key hstr hint =>
    cases key with
    | str s => exact absurd rfl (hstr s)
    | int n => exact absurd rfl (hint n)
    | _ => exact FailsWith.throw ⟨_, rfl⟩

namespace Expr

/-! ### Expressions -/

theorem ofValues_evaluateItems
    {env : Environment} {items : List Expr} (h : ∀ e ∈ items, OfValues (e.evaluate env)) :
  OfValues (evaluateItems env items)
  := by
  induction items with
  | nil => apply FailsWith.pure
  | cons e items ih =>
    apply FailsWith.bind (h e List.mem_cons_self)
    intro v
    apply FailsWith.bind (ih fun e' he' => h e' (List.mem_cons_of_mem _ he'))
    intro vs
    apply FailsWith.pure

theorem ofValues_evaluateEntries
    {env : Environment} {entries : List (String × Expr)}
    (h : ∀ entry ∈ entries, OfValues (entry.2.evaluate env)) :
  OfValues (evaluateEntries env entries)
  := by
  induction entries with
  | nil => apply FailsWith.pure
  | cons entry entries ih =>
    apply FailsWith.bind (h entry List.mem_cons_self)
    intro v
    apply FailsWith.bind (ih fun e' he' => h e' (List.mem_cons_of_mem _ he'))
    intro vs
    apply FailsWith.pure

/-- Direct evaluation fails on account of values only. -/
theorem ofValues_evaluate
    (env : Environment) (e : Expr) :
  OfValues (e.evaluate env)
  := by
  induction e with
  | literal l => apply FailsWith.pure
  | var name => apply Environment.ofValues_variable
  | property base name ih =>
    rw [evaluate]
    split
    · apply Environment.ofValues_variable
    · exact FailsWith.bind ih fun v => FailsWith.pure _
  | index base key ihbase ihkey =>
    exact FailsWith.bind ihbase fun v => FailsWith.bind ihkey fun w => (Value.ofOperands_index v w).ofValues
  | compare op l r ihl ihr =>
    exact FailsWith.bind ihl fun v => FailsWith.bind ihr fun w => FailsWith.pure _
  | arithmetic op l r ihl ihr =>
    exact FailsWith.bind ihl fun v => FailsWith.bind ihr fun w => (Value.ofOperands_arithmetic op v w).ofValues
  | unary op e ih => exact FailsWith.bind ih fun v => (Value.ofOperands_unary op v).ofValues
  | and l r ihl ihr =>
    exact FailsWith.bind ihl fun v => FailsWith.bind ihr fun w => (Value.ofOperands_and v w).ofValues
  | or l r ihl ihr =>
    exact FailsWith.bind ihl fun v => FailsWith.bind ihr fun w => (Value.ofOperands_or v w).ofValues
  | not e ih => exact FailsWith.bind ih fun v => v.ofOperands_not.ofValues
  | membership op l r ihl ihr =>
    exact FailsWith.bind ihl fun v => FailsWith.bind ihr fun w => (Value.ofOperands_membership op v w).ofValues
  | list items ih =>
    exact FailsWith.bind (ofValues_evaluateItems ih) fun vs => FailsWith.pure _
  | object entries ih =>
    exact FailsWith.bind (ofValues_evaluateEntries ih) fun entries => FailsWith.pure _
  | call name args ih =>
    apply FailsWith.bind (ofValues_evaluateItems ih)
    intro vs
    apply FunctionTable.ofValues_call
  | duration parts => exact (Value.ofOperands_ofDuration? _ _).ofValues
  | relative d direction ih =>
    exact FailsWith.bind ih fun v => (Value.ofOperands_fromPresent env.present direction v).ofValues

end Expr

end RuleLang
