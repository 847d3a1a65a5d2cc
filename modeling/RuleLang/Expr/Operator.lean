import RuleLang.Token.Symbol

/-!
# Operators

The binary and prefix operators of expressions: how each is written, how programs name
it, and the symbols by which the parser knows it.
-/

namespace RuleLang

/-- A comparison.  The strict ones tell an integer from a float. -/
inductive CompareOp where
  | equal
  | notEqual
  | strictEqual
  | strictNotEqual
  | greater
  | greaterEqual
  | less
  | lessEqual
deriving DecidableEq, Repr

namespace CompareOp

/-- How a comparison is written. -/
def symbol : CompareOp → String
  | equal => "=="
  | notEqual => "!="
  | strictEqual => "==="
  | strictNotEqual => "!=="
  | greater => ">"
  | greaterEqual => ">="
  | less => "<"
  | lessEqual => "<="

/-- The name of a comparison in programs. -/
def name : CompareOp → String
  | equal => "EQ"
  | notEqual => "NE"
  | strictEqual => "STRICT_EQ"
  | strictNotEqual => "STRICT_NE"
  | greater => "GT"
  | greaterEqual => "GE"
  | less => "LT"
  | lessEqual => "LE"

/-- All comparisons. -/
def all : List CompareOp :=
  [equal, notEqual, strictEqual, strictNotEqual, greater, greaterEqual, less, lessEqual]

/-- The comparison with the given name. -/
def ofName? (s : String) : Option CompareOp :=
  all.find? (·.name = s)

@[simp]
theorem ofName?_name
    (op : CompareOp) :
  ofName? op.name = some op
  := by
  cases op <;> decide

/-- The comparison that a symbol stands for. -/
def ofSymbol? : Symbol → Option CompareOp
  | .equal => some equal
  | .notEqual => some notEqual
  | .strictEqual => some strictEqual
  | .strictNotEqual => some strictNotEqual
  | .greater => some greater
  | .greaterEqual => some greaterEqual
  | .less => some less
  | .lessEqual => some lessEqual
  | _ => none

end CompareOp

/-- An operation of arithmetic. -/
inductive ArithmeticOp where
  | add
  | subtract
  | multiply
  | divide
  | modulo
deriving DecidableEq, Repr

namespace ArithmeticOp

/-- How an operation is written. -/
def symbol : ArithmeticOp → String
  | add => "+"
  | subtract => "-"
  | multiply => "*"
  | divide => "/"
  | modulo => "%"

/-- The name of an operation in programs. -/
def name : ArithmeticOp → String
  | add => "add"
  | subtract => "subtract"
  | multiply => "multiply"
  | divide => "divide"
  | modulo => "modulo"

/-- The sum or difference that a symbol stands for. -/
def ofAdditive? : Symbol → Option ArithmeticOp
  | .plus => some add
  | .minus => some subtract
  | _ => none

/-- The product, quotient or remainder that a symbol stands for. -/
def ofMultiplicative? : Symbol → Option ArithmeticOp
  | .star => some multiply
  | .slash => some divide
  | .percent => some modulo
  | _ => none

end ArithmeticOp

/-- A prefix operator that binds tighter than every binary one. -/
inductive UnaryOp where
  | minus
  | bang
deriving DecidableEq, Repr

namespace UnaryOp

/-- How an operator is written. -/
def symbol : UnaryOp → String
  | minus => "-"
  | bang => "!"

/-- The operator that a symbol stands for. -/
def ofSymbol? : Symbol → Option UnaryOp
  | .minus => some minus
  | .bang => some bang
  | _ => none

end UnaryOp

/-- A test of membership, from the side of the item or of the collection. -/
inductive MembershipOp where
  | isIn
  | contains
deriving DecidableEq, Repr

namespace MembershipOp

/-- How a test is written. -/
def symbol : MembershipOp → String
  | isIn => "IN"
  | contains => "CONTAINS"

/-- The test that a symbol stands for. -/
def ofSymbol? : Symbol → Option MembershipOp
  | .wordIn => some isIn
  | .wordContains => some contains
  | _ => none

end MembershipOp

end RuleLang
