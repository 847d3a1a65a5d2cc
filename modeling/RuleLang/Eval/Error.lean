import RuleLang.Program.Wire

/-!
# Failures of evaluation

Why an evaluation fails, as causes: values of a wrong kind, arithmetic out of range,
calls that cannot be made, and programs that leave the stack in a wrong state.
`EvalError.message` is the wording, and `EvalError.reason?` and `EvalError.operation?`
are what a report names beside it.
-/

namespace RuleLang

/-- What was tried with values of a wrong kind. -/
inductive Mismatch where
  | arithmetic (op : ArithmeticOp)
  | negate
  | and
  | or
  | not
  | index
  | searchString
  | lookUpKey
  | membership
  | relative
deriving DecidableEq, Repr

namespace Mismatch

/-- What was tried. -/
def operation : Mismatch → String
  | arithmetic op => op.name
  | negate => "negate"
  | and => "apply AND to"
  | or => "apply OR to"
  | not => "apply NOT to"
  | index => "index with"
  | searchString => "search a string for"
  | lookUpKey => "look up a map key with"
  | membership => "test membership in"
  | relative => "compute a relative date from"

/-- What it needs. -/
def expected : Mismatch → String
  | arithmetic .add => "numbers, a string operand, or a date and a duration"
  | arithmetic .subtract => "numbers, dates, or a date and a duration"
  | arithmetic .multiply => "numbers, or a duration and an integer"
  | arithmetic .divide => "numbers"
  | arithmetic .modulo => "numbers"
  | negate => "a number or duration"
  | and => "booleans"
  | or => "booleans"
  | not => "a boolean"
  | index => "a string or integer key"
  | searchString => "a string item"
  | lookUpKey => "a string or integer key"
  | membership => "a list, string, or map"
  | relative => "a duration"

end Mismatch

/-- Whose result is no word. -/
inductive OverflowSite where
  | arithmetic (op : ArithmeticOp)
  | negate
  | duration
deriving DecidableEq, Repr

/-- The name of an operation whose result is no word. -/
def OverflowSite.name : OverflowSite → String
  | arithmetic op => op.name
  | negate => "negate"
  | duration => "duration"

/-- What moves a date out of range. -/
inductive DateMove where
  | add
  | subtract
  | relative
deriving DecidableEq, Repr

/-- The name of an operation that moves dates. -/
def DateMove.name : DateMove → String
  | add => "add"
  | subtract => "subtract"
  | relative => "relative_date"

/-- Why an instruction cannot be carried out, whatever values there are. -/
inductive BadInstruction where
  | objectSize
  | objectKey (found : ValueKind)
  | wire (error : WireError)
deriving DecidableEq, Repr

/-- The wording of why an instruction cannot be carried out. -/
def BadInstruction.message : BadInstruction → String
  | objectSize => "object size overflows"
  | objectKey found => "object key must be a string or integer, found " ++ found.name
  | wire error => error.message

/-- Why an evaluation fails. -/
inductive EvalError where
  | mismatch (what : Mismatch) (values : List Value)
  | divisionByZero
  | moduloByZero
  | integerOverflow (site : OverflowSite)
  | dateOutOfRange (move : DateMove)
  | unknownFunction (name : String)
  | arity (name : String) (expected found : Nat)
  | functionFailed (name message : String)
  | functionPanicked (name message : String)
  | stackUnderflow (op : Opcode) (needed found : Nat)
  | noResult
  | unbalancedStack (height : Nat)
  | unknownOpcode (name : String)
  | invalidInstruction (cause : BadInstruction)
  | undefinedVariable (name : String)

/-- The classes of failures that reports tell apart. -/
inductive Reason where
  | divisionByZero
  | moduloByZero
  | integerOverflow
  | arityMismatch
  | stackUnderflow
  | unbalancedStack
  | unknownOpcode
  | unknownFunction
  | functionError
  | functionPanicked
  | invalidInstruction
  | dateOutOfRange
deriving DecidableEq, Repr

/-- The name of a class of failures. -/
def Reason.name : Reason → String
  | divisionByZero => "division_by_zero"
  | moduloByZero => "modulo_by_zero"
  | integerOverflow => "integer_overflow"
  | arityMismatch => "arity_mismatch"
  | stackUnderflow => "stack_underflow"
  | unbalancedStack => "unbalanced_stack"
  | unknownOpcode => "unknown_opcode"
  | unknownFunction => "unknown_function"
  | functionError => "function_error"
  | functionPanicked => "function_panicked"
  | invalidInstruction => "invalid_instruction"
  | dateOutOfRange => "date_out_of_range"

namespace EvalError

/-- The kinds of values, as a message names them. -/
def kindsText (values : List Value) : String :=
  String.intercalate " and " (values.map (·.kind.name))

/-- The wording of a failure. -/
def message : EvalError → String
  | mismatch what values =>
    "cannot " ++ what.operation ++ " " ++ kindsText values ++ ": expected " ++ what.expected
  | divisionByZero => "division by zero"
  | moduloByZero => "modulo by zero"
  | integerOverflow site => "integer overflow in " ++ site.name
  | dateOutOfRange move => "date out of range in " ++ move.name
  | unknownFunction name => "unknown function '" ++ name ++ "'"
  | arity name expected found =>
    "function '" ++ name ++ "' expects " ++ toString expected ++ " argument"
      ++ (if expected = 1 then "" else "s") ++ ", got " ++ toString found
  | functionFailed name message => "function '" ++ name ++ "' failed: " ++ message
  | functionPanicked name message => "function '" ++ name ++ "' panicked: " ++ message
  | stackUnderflow op needed found =>
    "stack underflow in '" ++ op.name ++ "': needed " ++ toString needed
      ++ " operand(s), found " ++ toString found
  | noResult => "program produced no result"
  | unbalancedStack height =>
    "program left " ++ toString height ++ " values on the stack, expected 1"
  | unknownOpcode name => "unknown opcode '" ++ name ++ "'"
  | invalidInstruction cause => "invalid instruction: " ++ cause.message
  | undefinedVariable name => "undefined variable '" ++ name ++ "'"

/-- The class of a failure.  Values of a wrong kind and undefined variables are classes of
their own. -/
def reason? : EvalError → Option Reason
  | mismatch .. => none
  | divisionByZero => some .divisionByZero
  | moduloByZero => some .moduloByZero
  | integerOverflow _ => some .integerOverflow
  | dateOutOfRange _ => some .dateOutOfRange
  | unknownFunction _ => some .unknownFunction
  | arity .. => some .arityMismatch
  | functionFailed .. => some .functionError
  | functionPanicked .. => some .functionPanicked
  | stackUnderflow .. => some .stackUnderflow
  | noResult => some .stackUnderflow
  | unbalancedStack _ => some .unbalancedStack
  | unknownOpcode _ => some .unknownOpcode
  | invalidInstruction _ => some .invalidInstruction
  | undefinedVariable _ => none

/-- The operation or function that failed, where there is one. -/
def operation? : EvalError → Option String
  | mismatch what _ => some what.operation
  | divisionByZero => some "divide"
  | moduloByZero => some "modulo"
  | integerOverflow site => some site.name
  | dateOutOfRange move => some move.name
  | unknownFunction name => some name
  | arity name _ _ => some name
  | functionFailed name _ => some name
  | functionPanicked name _ => some name
  | stackUnderflow op _ _ => some op.name
  | noResult => none
  | unbalancedStack _ => none
  | unknownOpcode name => some name
  | invalidInstruction _ => none
  | undefinedVariable _ => none

end EvalError

end RuleLang
