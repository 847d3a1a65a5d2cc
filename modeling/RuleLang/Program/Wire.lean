import RuleLang.Json.Printer
import RuleLang.Json.Reader
import RuleLang.Program.Basic
import RuleLang.Value.Wire

/-!
# Programs as JSON documents

A program is an array of instructions, and an instruction an array of the name of its
opcode and its fixed parts.  `Program.toJson` writes programs, `Program.ofJson` reads
them and tells which instruction is at fault.  `Program.listing` shows one with its
instructions numbered.
-/

namespace RuleLang

/-- Why a document is no program. -/
inductive WireFault where
  | unknownOpcode (name : String)
  | notProgram
  | notInstruction
  | emptyInstruction
  | opcodeNotString
  | operandCount (op : Opcode) (expected found : Nat)
  | operandNotString (op : Opcode) (place : Nat)
  | operandNotCount (op : Opcode) (place : Nat)
  | unknownComparison (name : String)
  | unknownDirection (name : String)
  | partsNotArray
  | partNotPair
  | amountNotInteger
  | unknownUnit (text : String)
  | value (fault : ValueFault)
deriving DecidableEq, Repr

/-- The wording of a fault, that of an unknown opcode apart. -/
def WireFault.reason : WireFault → String
  | unknownOpcode name => name
  | notProgram => "program must be a JSON array"
  | notInstruction => "instruction must be an array"
  | emptyInstruction => "instruction is empty"
  | opcodeNotString => "opcode must be a string"
  | operandCount op expected found =>
    "'" ++ op.name ++ "' takes " ++ toString expected ++ " operand(s), got " ++ toString found
  | operandNotString op place =>
    "'" ++ op.name ++ "' operand " ++ toString place ++ " must be a string"
  | operandNotCount op place =>
    "'" ++ op.name ++ "' operand " ++ toString place ++ " must be a non-negative integer"
  | unknownComparison name => "unknown comparison '" ++ name ++ "'"
  | unknownDirection name => "unknown direction '" ++ name ++ "'"
  | partsNotArray => "duration operand must be an array of pairs"
  | partNotPair => "duration part must be [amount, unit]"
  | amountNotInteger => "duration amount must be an integer"
  | unknownUnit text => "unknown duration unit " ++ text
  | value fault => fault.message

/-- What is wrong with a program, and with which of its instructions. -/
structure WireError where
  fault : WireFault
  place : Option Nat := none
deriving DecidableEq, Repr

/-- The message of what is wrong. -/
def WireError.message (e : WireError) : String :=
  let place := match e.place with
    | some n => " at index " ++ toString n
    | none => ""
  match e.fault with
  | .unknownOpcode name => "unknown opcode '" ++ name ++ "'" ++ place
  | fault => "malformed instruction" ++ place ++ ": " ++ fault.reason

namespace Instruction

/-- A duration's parts as a document. -/
def partsToJson (parts : List (Int64 × DurationUnit)) : Json :=
  .arr (parts.map fun (n, u) => .arr [.int n.toInt, .str u.name])

/-- The fixed parts of an instruction as documents. -/
def operandsToJson : Instruction → List Json
  | literal v => [v.toJson]
  | load path => [.str path]
  | access name => [.str name]
  | compare op => [.str op.name]
  | array n | object n => [.int n.toNat]
  | call name n => [.str name, .int n.toNat]
  | duration parts => [partsToJson parts]
  | relative direction => [.str direction.name]
  | index | arithmetic _ | unary _ | and | or | not | membership _ => []

/-- The document that an instruction is written as. -/
def toJson (i : Instruction) : Json :=
  .arr (.str i.opcode.name :: i.operandsToJson)

/-- The string at a place of the operands of `op`. -/
def stringOperand (op : Opcode) (place : Nat) : Json → Except WireFault String
  | .str s => return s
  | _ => throw (.operandNotString op place)

/-- The number at a place of the operands of `op`. -/
def countOperand (op : Opcode) (place : Nat) : Json → Except WireFault UInt64
  | .int n =>
    if 0 ≤ n ∧ n < 18446744073709551616 then return UInt64.ofNat n.toNat
    else throw (.operandNotCount op place)
  | _ => throw (.operandNotCount op place)

/-- A part of a duration: an amount and the name of a unit. -/
def partOfJson : Json → Except WireFault (Int64 × DurationUnit)
  | .arr [amount, unit] =>
    match amount.asInt64? with
    | none => throw .amountNotInteger
    | some n =>
      match unit with
      | .str name =>
        match DurationUnit.ofName? name with
        | some u => return (n, u)
        | none => throw (.unknownUnit unit.text)
      | _ => throw (.unknownUnit unit.text)
  | _ => throw .partNotPair

/-- The parts of a duration. -/
def partsOfJson : Json → Except WireFault (List (Int64 × DurationUnit))
  | .arr items => items.mapM partOfJson
  | _ => throw .partsNotArray

/-- The instruction with the opcode `op` and the fixed parts `operands`. -/
def ofOperands (op : Opcode) (operands : List Json) : Except WireFault Instruction :=
  match op, operands with
  | .literal, [j] =>
    match Value.ofJson j with
    | .ok v => return literal v
    | .error fault => throw (.value fault)
  | .load, [j] => return load (← stringOperand op 0 j)
  | .access, [j] => return access (← stringOperand op 0 j)
  | .compare, [j] => do
    let name ← stringOperand op 0 j
    match CompareOp.ofName? name with
    | some c => return compare c
    | none => throw (.unknownComparison name)
  | .array, [j] => return array (← countOperand op 0 j)
  | .object, [j] => return object (← countOperand op 0 j)
  | .call, [name, count] => return call (← stringOperand op 0 name) (← countOperand op 1 count)
  | .duration, [j] => return duration (← partsOfJson j)
  | .relative, [j] => do
    let name ← stringOperand op 0 j
    match Direction.ofName? name with
    | some d => return relative d
    | none => throw (.unknownDirection name)
  | .index, [] => return index
  | .arithmetic a, [] => return arithmetic a
  | .unary u, [] => return unary u
  | .and, [] => return and
  | .or, [] => return or
  | .not, [] => return not
  | .membership m, [] => return membership m
  | _, _ => throw (.operandCount op (expected op) operands.length)
where
  /-- The number of fixed parts. -/
  expected : Opcode → Nat
    | .literal | .load | .access | .compare | .array | .object | .duration | .relative => 1
    | .call => 2
    | .index | .arithmetic _ | .unary _ | .and | .or | .not | .membership _ => 0

/-- The instruction that a document is read as. -/
def ofJson : Json → Except WireFault Instruction
  | .arr (.str name :: operands) =>
    match Opcode.ofName? name with
    | some op => ofOperands op operands
    | none => throw (.unknownOpcode name)
  | .arr (_ :: _) => throw .opcodeNotString
  | .arr [] => throw .emptyInstruction
  | _ => throw .notInstruction

end Instruction

namespace Program

/-- The document that a program is written as. -/
def toJson (p : Program) : Json := .arr (p.map Instruction.toJson)

/-- The instructions that documents are read as, the first of them at the given
place. -/
def instructionsOfJson (place : Nat) : List Json → Except WireError Program
  | [] => return []
  | j :: rest =>
    match Instruction.ofJson j with
    | .error fault => throw ⟨fault, some place⟩
    | .ok i => do
      let is ← instructionsOfJson (place + 1) rest
      return i :: is

/-- The program that a document is read as. -/
def ofJson : Json → Except WireError Program
  | .arr items => instructionsOfJson 0 items
  | _ => throw ⟨.notProgram, none⟩

/-- The text of a program as a document. -/
def wireText (p : Program) : String := p.toJson.text

/-- A program with an instruction on each line, numbered from zero. -/
def listing (p : Program) : String :=
  String.join (p.zipIdx.map fun (i, n) =>
    let number := toString n
    String.ofList (List.replicate (4 - number.length) ' ') ++ number ++ "  " ++ i.toJson.text
      ++ "\n")

end Program

end RuleLang
