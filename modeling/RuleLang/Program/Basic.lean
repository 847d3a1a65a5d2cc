import RuleLang.Duration.Unit
import RuleLang.Expr.Operator
import RuleLang.Value.Basic

/-!
# Programs

A program is a list of instructions for a stack machine.  An instruction takes its
operands from the stack and leaves one value there; none jumps.
-/

namespace RuleLang

/-- An instruction.  Numbers of operands are words without a sign. -/
inductive Instruction where
  /-- Leaves a fixed value. -/
  | literal (v : Value)
  /-- Leaves the value of a dotted path. -/
  | load (path : String)
  /-- Takes a property of a value. -/
  | access (name : String)
  /-- Takes the part of a value that a key names. -/
  | index
  | compare (op : CompareOp)
  | arithmetic (op : ArithmeticOp)
  | unary (op : UnaryOp)
  | and
  | or
  | not
  | membership (op : MembershipOp)
  /-- Makes a list of values. -/
  | array (count : UInt64)
  /-- Makes a map of keys with values. -/
  | object (count : UInt64)
  | call (name : String) (count : UInt64)
  /-- Leaves the duration with the given parts. -/
  | duration (parts : List (Int64 × DurationUnit))
  /-- Moves the present by a duration. -/
  | relative (direction : Direction)

/-- What an instruction does, without its fixed parts. -/
inductive Opcode where
  | literal
  | load
  | access
  | index
  | compare
  | arithmetic (op : ArithmeticOp)
  | unary (op : UnaryOp)
  | and
  | or
  | not
  | membership (op : MembershipOp)
  | array
  | object
  | call
  | duration
  | relative
deriving DecidableEq, Repr

/-- The opcode of an instruction. -/
def Instruction.opcode : Instruction → Opcode
  | literal _ => .literal
  | load _ => .load
  | access _ => .access
  | index => .index
  | compare _ => .compare
  | arithmetic op => .arithmetic op
  | unary op => .unary op
  | and => .and
  | or => .or
  | not => .not
  | membership op => .membership op
  | array _ => .array
  | object _ => .object
  | call .. => .call
  | duration _ => .duration
  | relative _ => .relative

namespace Opcode

/-- The name of an opcode. -/
def name : Opcode → String
  | literal => "lit"
  | load => "load"
  | access => "access"
  | index => "bracket_access"
  | compare => "compare"
  | arithmetic op => op.name
  | unary .minus => "unary_minus"
  | unary .bang => "unary_bang"
  | and => "and"
  | or => "or"
  | not => "not"
  | membership .isIn => "in"
  | membership .contains => "contains"
  | array => "array"
  | object => "object"
  | call => "call"
  | duration => "duration"
  | relative => "relative_date"

/-- All opcodes. -/
def all : List Opcode :=
  [literal, load, access, index, compare, arithmetic .add, arithmetic .subtract,
    arithmetic .multiply, arithmetic .divide, arithmetic .modulo, unary .minus,
    unary .bang, and, or, not, membership .isIn, membership .contains, array, object,
    call, duration, relative]

/-- The opcode with the given name. -/
def ofName? (s : String) : Option Opcode :=
  all.find? (·.name = s)

@[simp]
theorem ofName?_name
    (op : Opcode) :
  ofName? op.name = some op
  := by
  cases op with
  | arithmetic op => cases op <;> decide
  | unary op => cases op <;> decide
  | membership op => cases op <;> decide
  | _ => decide

end Opcode

/-- A program. -/
abbrev Program := List Instruction

end RuleLang
