import RuleLang.Expr.Format
import RuleLang.Proofs.Grammar.Descent

/-!
# Descents of formatted expressions

`Expr.descent f e` is what reading the text that the format `f` writes for the expression `e`
counts of the depth, read off the tree.  A first operand without parentheses hands its chain
on to the operator behind it if that is on the same level; every other operand ends its chain.
The text is read under the limits from `Expr.reach f e` on.
-/

namespace RuleLang

namespace Format

/-- Whether an operand is put in parentheses; `required` says that it would be read otherwise
without. -/
def wraps (f : Format) (required : Bool) (precedence : Nat) : Bool :=
  match f.parens with
  | .none => false
  | .minimal => required
  | .explicit => required || 2 ≤ precedence

theorem operand_eq
    (f : Format) (required : Bool) (precedence : Nat) (inside : List Piece) :
  f.operand required precedence inside =
    if f.wraps required precedence then .openGroup :: (inside ++ [.closeGroup]) else inside
  := rfl

/-- The descent of an operand, which parentheses lead one step deeper. -/
def operandDescent (f : Format) (required : Bool) (precedence : Nat) (d : Descent) : Descent :=
  if f.wraps required precedence then d.nested else d

/-- Outside `none`, what is left without parentheses is read as it is. -/
theorem eq_false_of_wraps {f : Format} (hf : f.parens ≠ .none) {required : Bool}
    {precedence : Nat} (h : f.wraps required precedence = false) :
  required = false
  := by
  unfold wraps at h
  split at h
  · contradiction
  · apply h
  · apply (Bool.or_eq_false_iff.mp h).1

/-- The descent of the first operand of an operator, given its precedence and its descent.  All
precedences up to one are on the level of properties. -/
def firstDescent (f : Format) (precedence : Nat) (first : Nat × Descent) : Descent :=
  let d := f.operandDescent (precedence < first.1) first.1 first.2
  if max first.1 1 = precedence then d else d.closed

/-- The descent of a binary operator with its operands, each given with its precedence. -/
def binaryDescent (f : Format) (precedence : Nat) (left right : Nat × Descent) : Descent :=
  f.firstDescent precedence left
    ++ .step 1 (f.operandDescent (precedence ≤ right.1) right.1 right.2)

end Format

namespace Expr

mutual

/-- What the text of an expression counts of the depth. -/
def descent (f : Format) : Expr → Descent
  | literal _ | var _ | duration _ => .flat
  | property base _ => f.firstDescent 1 (base.precedence, base.descent f) ++ .step 1 .flat
  | index base key =>
    f.firstDescent 1 (base.precedence, base.descent f) ++ .step 1 (key.descent f).nested
  | compare _ l r => f.binaryDescent 6 (l.precedence, l.descent f) (r.precedence, r.descent f)
  | arithmetic op l r =>
    f.binaryDescent op.precedence (l.precedence, l.descent f) (r.precedence, r.descent f)
  | unary _ e => (f.operandDescent (2 < e.precedence) e.precedence (e.descent f)).nested
  | and l r => f.binaryDescent 8 (l.precedence, l.descent f) (r.precedence, r.descent f)
  | or l r => f.binaryDescent 9 (l.precedence, l.descent f) (r.precedence, r.descent f)
  | not e => (f.operandDescent (7 < e.precedence) e.precedence (e.descent f)).nested
  | membership _ l r =>
    f.binaryDescent 5 (l.precedence, l.descent f) (r.precedence, r.descent f)
  | list items => (itemsDescent f items).closed
  | object entries => (entriesDescent f entries).closed
  -- every dot of the name is a step, the last one that of the call
  | call name args => .step (name.toList.count '.') (itemsDescent f args)
  | relative d _ => d.descent f

/-- What expressions with commas between them count of the depth. -/
def itemsDescent (f : Format) : List Expr → Descent
  | [] => .flat
  | e :: rest => (e.descent f).nested ++ itemsDescent f rest

/-- What entries of an object with commas between them count of the depth. -/
def entriesDescent (f : Format) : List (String × Expr) → Descent
  | [] => .flat
  | (_, e) :: rest => (e.descent f).nested ++ entriesDescent f rest

end

/-- The least limit of the depth under which the text of an expression is read. -/
def reach (f : Format) (e : Expr) : Nat := (e.descent f).deepest + 1

end Expr

end RuleLang
