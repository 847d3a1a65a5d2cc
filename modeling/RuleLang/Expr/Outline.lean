import RuleLang.Calendar.Printer
import RuleLang.Expr.Basic
import RuleLang.Number.Notation
import RuleLang.Number.Word
import RuleLang.Text.Quoted

/-!
# Outlines of expressions

The form that shows an expression as a tree, with a line for every part of it.  An
`Outline` is such a tree of names, fields and items; `Expr.outline` is the outline of
an expression.
-/

namespace RuleLang

/-- A tree to be shown with a line for every part. -/
inductive Outline where
  | leaf (text : List Char)
  /-- Named parts in braces. -/
  | record (name : String) (fields : List (String × Outline))
  /-- Parts without names between two brackets. -/
  | group (name : String) (opening closing : Char) (items : List Outline)

namespace Outline

/-- A named tree with one part. -/
def wrap (name : String) (o : Outline) : Outline := group name '(' ')' [o]

/-- A list. -/
def list (items : List Outline) : Outline := group "" '[' ']' items

/-- A pair. -/
def pair (a b : Outline) : Outline := group "" '(' ')' [a, b]

/-- A leaf with the text of a string. -/
def word (s : String) : Outline := leaf s.toList

/-- A leaf with a string in quotes. -/
def quoted (s : String) : Outline := leaf (Text.quoted s.toList)

/-- The blanks at the beginning of a line `depth` levels deep. -/
def margin (depth : Nat) : List Char := List.replicate (4 * depth) ' '

mutual

/-- The text of a tree whose first line stands `depth` levels deep. -/
def text (depth : Nat) : Outline → List Char
  | leaf t => t
  | record name fields =>
    name.toList ++ [' ', '\x7b', '\n'] ++ fieldTexts (depth + 1) fields ++ margin depth
      ++ ['\x7d']
  | group name opening closing items =>
    if items.isEmpty then name.toList ++ [opening, closing]
    else
      name.toList ++ [opening, '\n'] ++ itemTexts (depth + 1) items ++ margin depth
        ++ [closing]

/-- The lines of named parts. -/
def fieldTexts (depth : Nat) : List (String × Outline) → List Char
  | [] => []
  | (name, o) :: rest =>
    margin depth ++ name.toList ++ [':', ' '] ++ o.text depth ++ [',', '\n']
      ++ fieldTexts depth rest

/-- The lines of parts without names. -/
def itemTexts (depth : Nat) : List Outline → List Char
  | [] => []
  | o :: rest => margin depth ++ o.text depth ++ [',', '\n'] ++ itemTexts depth rest

end

end Outline

/-- The name of a comparison in outlines. -/
def CompareOp.outlineName : CompareOp → String
  | equal => "Eq"
  | notEqual => "NotEq"
  | strictEqual => "StrictEq"
  | strictNotEqual => "StrictNotEq"
  | greater => "Gt"
  | greaterEqual => "GtEq"
  | less => "Lt"
  | lessEqual => "LtEq"

/-- The name of an operation in outlines. -/
def ArithmeticOp.outlineName : ArithmeticOp → String
  | add => "Add"
  | subtract => "Sub"
  | multiply => "Mul"
  | divide => "Div"
  | modulo => "Mod"

/-- The name of a prefix operator in outlines. -/
def UnaryOp.outlineName : UnaryOp → String
  | minus => "Minus"
  | bang => "Bang"

/-- The name of a test of membership in outlines. -/
def MembershipOp.outlineName : MembershipOp → String
  | isIn => "In"
  | contains => "Contains"

/-- The name of a direction in outlines. -/
def Direction.outlineName : Direction → String
  | ago => "Ago"
  | fromNow => "FromNow"

/-- The name of a unit in outlines. -/
def DurationUnit.outlineName : DurationUnit → String
  | years => "Years"
  | months => "Months"
  | weeks => "Weeks"
  | days => "Days"
  | hours => "Hours"
  | minutes => "Minutes"
  | seconds => "Seconds"
  | milliseconds => "Milliseconds"

/-- The outline of a literal. -/
def Literal.outline : Literal → Outline
  | int n => .wrap "Int" (.word (Word.text n))
  | float x => .wrap "Float" (.word (FloatNotation.tree.write x))
  | str s => .wrap "Str" (.quoted s)
  | bool b => .wrap "Bool" (.word (toString b))
  | date d => .wrap "Date" (.leaf d.text)
  | dateTime t => .wrap "DateTime" (.leaf t.text)

namespace Expr

mutual

/-- The outline of an expression. -/
def outline : Expr → Outline
  | literal l => .wrap "Literal" l.outline
  | var name => .wrap "Identifier" (.quoted name)
  | property base name =>
    .record "PropertyAccess" [("base", base.outline), ("name", .quoted name)]
  | index base key => .record "BracketAccess" [("base", base.outline), ("key", key.outline)]
  | compare op l r =>
    .record "Comparison"
      [("op", .word op.outlineName), ("left", l.outline), ("right", r.outline)]
  | arithmetic op l r =>
    .record "Arithmetic"
      [("op", .word op.outlineName), ("left", l.outline), ("right", r.outline)]
  | unary op e => .record "Unary" [("op", .word op.outlineName), ("operand", e.outline)]
  | and l r => .record "LogicalAnd" [("left", l.outline), ("right", r.outline)]
  | or l r => .record "LogicalOr" [("left", l.outline), ("right", r.outline)]
  | not e => .record "LogicalNot" [("operand", e.outline)]
  | membership op l r =>
    .record "Membership"
      [("op", .word op.outlineName), ("left", l.outline), ("right", r.outline)]
  | list items => .wrap "List" (.list (itemOutlines items))
  | object entries => .wrap "Object" (.list (entryOutlines entries))
  | call name args =>
    .record "FunctionCall" [("name", .quoted name), ("args", .list (itemOutlines args))]
  | duration parts =>
    .wrap "Duration" (.list (parts.map fun (n, u) =>
      .pair (.word (Word.text n)) (.word u.outlineName)))
  | relative d direction =>
    .record "RelativeDate"
      [("duration", d.outline), ("direction", .word direction.outlineName)]

/-- The outlines of several expressions. -/
def itemOutlines : List Expr → List Outline
  | [] => []
  | e :: rest => e.outline :: itemOutlines rest

/-- The outlines of the entries of an object. -/
def entryOutlines : List (String × Expr) → List Outline
  | [] => []
  | (key, e) :: rest => .pair (.quoted key) e.outline :: entryOutlines rest

end

end Expr

end RuleLang
