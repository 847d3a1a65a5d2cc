import RuleLang.Expr.Basic
import RuleLang.Program.Basic

/-!
# Programs of expressions

`Expr.lower` is the program that leaves the value of an expression on the stack.  The
operands of every part come before it, from left to right.  Two kinds of expressions
are a single instruction: a dotted path is loaded at once, and a list of constants is
a literal.
-/

namespace RuleLang

/-- The value that a literal stands for. -/
def Literal.toValue : Literal → Value
  | int n => .int n
  | float x => .float x
  | str s => .str s
  | bool b => .bool b
  | date d => .date d
  | dateTime t => .dateTime t

namespace Expr

mutual

/-- The value of a literal or of a list of constants. -/
def constant? : Expr → Option Value
  | literal l => some l.toValue
  | list items => (constants? items).map .list
  | _ => none

/-- The values of expressions that are all constants. -/
def constants? : List Expr → Option (List Value)
  | [] => some []
  | e :: rest => do
    let v ← e.constant?
    let vs ← constants? rest
    return v :: vs

end

mutual

/-- The program of an expression. -/
def lower : Expr → Program
  | literal l => [.literal l.toValue]
  | var name => [.load name]
  | property base name =>
    match base.path? with
    | some path => [.load (path ++ "." ++ name)]
    | none => base.lower ++ [.access name]
  | index base key => base.lower ++ key.lower ++ [.index]
  | compare op l r => l.lower ++ r.lower ++ [.compare op]
  | arithmetic op l r => l.lower ++ r.lower ++ [.arithmetic op]
  | unary op e => e.lower ++ [.unary op]
  | and l r => l.lower ++ r.lower ++ [.and]
  | or l r => l.lower ++ r.lower ++ [.or]
  | not e => e.lower ++ [.not]
  | membership op l r => l.lower ++ r.lower ++ [.membership op]
  | list items =>
    match constants? items with
    | some vs => [.literal (.list vs)]
    | none => lowerItems items ++ [.array (UInt64.ofNat items.length)]
  | object entries => lowerEntries entries ++ [.object (UInt64.ofNat entries.length)]
  | call name args => lowerItems args ++ [.call name (UInt64.ofNat args.length)]
  | duration parts => [.duration parts]
  | relative d direction => d.lower ++ [.relative direction]

/-- The programs of several expressions, one after the other. -/
def lowerItems : List Expr → Program
  | [] => []
  | e :: rest => e.lower ++ lowerItems rest

/-- The programs of entries, each behind its key. -/
def lowerEntries : List (String × Expr) → Program
  | [] => []
  | (key, e) :: rest => .literal (.str key) :: (e.lower ++ lowerEntries rest)

end

end Expr

end RuleLang
