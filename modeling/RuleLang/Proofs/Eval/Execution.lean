import RuleLang.Eval.Machine

/-!
# Execution of programs on stacks

`Program.exec` takes the instructions of a program one after the other from stack to stack.
A machine that runs gives the value that execution from the empty stack leaves, and the
execution of a program that is made of two parts is that of the parts.
-/

namespace RuleLang

namespace Program

/-- The stack after a program, given the stack before it. -/
def exec (env : Environment) : Program → List Value → Except EvalError (List Value)
  | [], stack => return stack
  | i :: p, stack =>
    match i.execute env stack with
    | (stack, none) => exec env p stack
    | (_, some e) => throw e

/-- The value that a stack leaves. -/
def result : List Value → Except EvalError Value
  | [] => throw .noResult
  | [v] => return v
  | stack => throw (.unbalancedStack stack.length)

/-- The parts of a program are executed one after the other. -/
theorem exec_append
    (env : Environment) (p q : Program) (stack : List Value) :
  exec env (p ++ q) stack = exec env p stack >>= exec env q
  := by
  induction p generalizing stack with
  | nil => rfl
  | cons i p ih =>
    simp only [List.cons_append, exec]
    split
    · apply ih
    · rfl

end Program

/-- What a machine leaves is what is left on its stack. -/
theorem Machine.finish_eq
    (m : Machine) :
  m.finish = Program.result m.stack
  := by
  obtain ⟨_, _, _, stack, _⟩ := m
  match stack with
  | [] => rfl
  | [_] => rfl
  | _ :: _ :: _ => rfl

/-- A machine that runs executes what is left of its program. -/
theorem Machine.runAlong_eq
    (env : Environment) (m : Machine) (h : m.halted = m.ahead.isEmpty) :
  m.runAlong env m.ahead = Program.exec env m.ahead m.stack >>= Program.result
  := by
  obtain ⟨p, ip, steps, stack, halted⟩ := m
  obtain rfl : halted = p.isEmpty := h
  induction p generalizing ip steps stack with
  | nil => apply finish_eq
  | cons i p ih =>
    simp only [runAlong, step, Program.exec, List.isEmpty_cons, Bool.false_eq_true, if_false]
    cases hi : i.execute env stack with
    | mk stack' failure =>
    cases failure with
    | some e => rfl
    | none =>
    cases p with
    | nil => apply finish_eq
    | cons j p => apply ih

/-- The value of a program is what its execution from the empty stack leaves. -/
theorem Program.evaluate_eq
    (env : Environment) (p : Program) :
  p.evaluate env = exec env p [] >>= result
  := Machine.runAlong_eq env (Machine.start p) rfl

namespace Instruction

/-- What lies on top of a stack is taken with the lowest first. -/
theorem takeTop_append
    (vs stack taken : List Value) :
  takeTop vs.length (vs ++ stack) taken = some (vs.reverse ++ taken, stack)
  := by
  induction vs generalizing taken with
  | nil => rfl
  | cons v vs ih =>
    rw [List.reverse_cons, List.append_assoc, List.singleton_append]
    apply ih

/-- An instruction whose operands lie on top of the stack puts its result in their place,
or fails as it fails for them. -/
theorem exec_operands
    (env : Environment) (i : Instruction) (operands stack : List Value)
    (hn : operands.length = i.arity) (hi : i.isTooLarge = false) :
  Program.exec env [i] (operands.reverse ++ stack)
    = (i.result env operands).map (· :: stack)
  := by
  have htake := takeTop_append operands.reverse stack []
  rw [List.length_reverse, List.reverse_reverse, List.append_nil, hn] at htake
  simp only [Program.exec, execute, hi, Bool.false_eq_true, if_false, htake]
  cases i.result env operands with
  | error e => rfl
  | ok v => rfl

end Instruction

end RuleLang
