import RuleLang.Eval.Access
import RuleLang.Eval.Arithmetic
import RuleLang.Eval.Compare
import RuleLang.Eval.Function
import RuleLang.Eval.Logic

/-!
# The stack machine

A machine carries out the instructions of a program one after the other.  An instruction
takes its operands from the stack, and leaves its result there or fails; a failure halts
the machine where it is, its operands gone.  `Machine.run` carries out what is left and
gives back the one value that must then be on the stack.
-/

namespace RuleLang

/-- How programs are evaluated. -/
structure EvalOptions where
  /-- Whether a variable without a value is a failure. -/
  strict : Bool := false
  /-- The present, where it is not that of the clock. -/
  now : Option DateTime := none
deriving DecidableEq, Repr

/-- What a program is evaluated in. -/
structure Environment where
  context : Context
  functions : FunctionTable
  options : EvalOptions
  clock : DateTime

/-- The present from which relative dates are counted. -/
def Environment.present (env : Environment) : DateTime := env.options.now.getD env.clock

namespace Instruction

/-- The number of operands on the stack. -/
def arity : Instruction → Nat
  | literal _ | load _ | duration _ => 0
  | access _ | unary _ | not | relative _ => 1
  | index | compare _ | arithmetic _ | and | or | membership _ => 2
  | array n => n.toNat
  | object n => 2 * n.toNat
  | call _ n => n.toNat

/-- Whether the number of operands does not fit in a word without a sign. -/
def isTooLarge : Instruction → Bool
  | object n => 18446744073709551616 ≤ 2 * n.toNat
  | _ => false

/-- The entries that keys and values make by turns. -/
def entriesOf : List Value → Except EvalError (List (MapKey × Value))
  | [] | [_] => return []
  | key :: v :: rest => do
    let k ← match key with
      | .str s => pure (MapKey.str s)
      | .int n => pure (MapKey.int n)
      | other => throw (.invalidInstruction (.objectKey other.kind))
    let entries ← entriesOf rest
    return (k, v) :: entries

/-- The value of a variable.  Under strict options it must not be undefined. -/
def loadPath (env : Environment) (path : String) : Except EvalError Value :=
  let v := env.context.resolve path
  if env.options.strict && v.isUndefined then throw (.undefinedVariable path) else return v

/-- The result of an instruction for its operands, the lowest on the stack first. -/
def result (env : Environment) (i : Instruction) (operands : List Value) :
    Except EvalError Value :=
  match i, operands with
  | literal v, [] => return v
  | load path, [] => loadPath env path
  | access name, [v] => return v.property name
  | index, [base, key] => Value.index base key
  | compare op, [a, b] => return Value.compare op a b
  | arithmetic op, [a, b] => Value.arithmetic op a b
  | unary .minus, [v] => v.negate
  | unary .bang, [v] => v.not
  | not, [v] => v.not
  | and, [a, b] => Value.and a b
  | or, [a, b] => Value.or a b
  | membership op, [a, b] => Value.membership op a b
  | array _, vs => return .list vs
  | object _, vs => do
    let entries ← entriesOf vs
    return .map (Keyed.ofList entries)
  | call name _, vs => env.functions.call name vs env.context env.clock
  | duration parts, [] => Value.ofDuration? .duration (Duration.ofParts? parts)
  | relative direction, [v] =>
    match v with
    | .duration d => Value.relative env.present direction d
    | .undefined => return .undefined
    | v => throw (.mismatch .relative [v])
  | i, vs => throw (.stackUnderflow i.opcode i.arity vs.length)

/-- The top `n` values of a stack in front of `taken`, the lowest first, and the stack
below them. -/
def takeTop : (n : Nat) → (stack taken : List Value) → Option (List Value × List Value)
  | 0, stack, taken => some (taken, stack)
  | _ + 1, [], _ => none
  | n + 1, v :: stack, taken => takeTop n stack (v :: taken)

/-- The stack after an instruction, and its failure if it fails. -/
def execute (env : Environment) (i : Instruction) (stack : List Value) :
    List Value × Option EvalError :=
  if i.isTooLarge then (stack, some (.invalidInstruction .objectSize))
  else
    match takeTop i.arity stack [] with
    | none => (stack, some (.stackUnderflow i.opcode i.arity stack.length))
    | some (operands, below) =>
      match i.result env operands with
      | .ok v => (v :: below, none)
      | .error e => (below, some e)

end Instruction

/-- A machine: the instructions that are left, the number of the next one, the number of
steps taken, and the stack with its top first. -/
structure Machine where
  ahead : Program
  ip : Nat
  steps : Nat
  stack : List Value
  halted : Bool

namespace Machine

/-- The machine at the beginning of a program. -/
def start (p : Program) : Machine :=
  ⟨p, 0, 0, [], p.isEmpty⟩

/-- The machine after a step, and the failure of the step if it fails.  A halted machine
takes no steps. -/
def step (env : Environment) (m : Machine) : Machine × Option EvalError :=
  if m.halted then (m, none)
  else
    match m.ahead with
    | [] => ({ m with halted := true }, none)
    | i :: ahead =>
      match i.execute env m.stack with
      | (stack, some e) => ({ m with stack, halted := true }, some e)
      | (stack, none) => (⟨ahead, m.ip + 1, m.steps + 1, stack, ahead.isEmpty⟩, none)

/-- The value that a halted machine leaves. -/
def finish (m : Machine) : Except EvalError Value :=
  match m.stack with
  | [] => throw .noResult
  | [v] => return v
  | stack => throw (.unbalancedStack stack.length)

/-- The value that a machine leaves after at most one step for each of `ahead`. -/
def runAlong (env : Environment) : (ahead : Program) → Machine → Except EvalError Value
  | [], m => m.finish
  | _ :: ahead, m =>
    match m.step env with
    | (_, some e) => throw e
    | (m, none) => if m.halted then m.finish else runAlong env ahead m

/-- The value that a machine leaves when it has carried out the instructions left to it. -/
def run (env : Environment) (m : Machine) : Except EvalError Value :=
  m.runAlong env m.ahead

end Machine

/-- The value of a program. -/
def Program.evaluate (env : Environment) (p : Program) : Except EvalError Value :=
  (Machine.start p).run env

/-- The program that a document is read as, to be evaluated. -/
def Program.decode (j : Json) : Except EvalError Program :=
  match Program.ofJson j with
  | .ok p => return p
  | .error { fault := .unknownOpcode name, .. } => throw (.unknownOpcode name)
  | .error e => throw (.invalidInstruction (.wire e))

end RuleLang
