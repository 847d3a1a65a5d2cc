import RuleLang.Calendar.DateTime
import RuleLang.Duration.Unit
import RuleLang.Expr.Operator

/-!
# Expressions

The trees that expressions are, and two things read off them: `Expr.precedence`, by
which parentheses are placed, and `Expr.path?`, the dotted path of a chain of
properties that begins with a variable.
-/

namespace RuleLang

/-- A value written in an expression. -/
inductive Literal where
  | int (n : Int64)
  | float (x : Float)
  | str (s : String)
  | bool (b : Bool)
  | date (d : Date)
  | dateTime (t : DateTime)
deriving DecidableEq, Repr

/-- An expression. -/
inductive Expr where
  | literal (l : Literal)
  /-- The value of a variable. -/
  | var (name : String)
  /-- The property of a value with a fixed name. -/
  | property (base : Expr) (name : String)
  /-- The part of a value that a computed key names. -/
  | index (base key : Expr)
  | compare (op : CompareOp) (left right : Expr)
  | arithmetic (op : ArithmeticOp) (left right : Expr)
  | unary (op : UnaryOp) (operand : Expr)
  | and (left right : Expr)
  | or (left right : Expr)
  | not (operand : Expr)
  | membership (op : MembershipOp) (left right : Expr)
  | list (items : List Expr)
  /-- A map, its entries in the order in which they are written. -/
  | object (entries : List (String × Expr))
  | call (name : String) (args : List Expr)
  | duration (parts : List (Int64 × DurationUnit))
  /-- The date-time that lies a duration before or after the present. -/
  | relative (duration : Expr) (direction : Direction)

/-- Products bind tighter than sums. -/
def ArithmeticOp.precedence : ArithmeticOp → Nat
  | multiply | divide | modulo => 3
  | add | subtract => 4

namespace Expr

/-- How loosely the outermost construct of an expression binds, the tightest being 0. -/
def precedence : Expr → Nat
  | literal _ | var _ | list _ | object _ | call .. => 0
  | property .. | index .. => 1
  | unary .. | duration _ | relative .. => 2
  | arithmetic op _ _ => op.precedence
  | membership .. => 5
  | compare .. => 6
  | not _ => 7
  | and .. => 8
  | or .. => 9

/-- The dotted path of a variable or of properties that begin with one. -/
def path? : Expr → Option String
  | var name => some name
  | property base name => base.path?.map fun path => path ++ "." ++ name
  | _ => none

end Expr

end RuleLang
