import RuleLang.Expr.Basic

/-!
# Induction on expressions

`Expr.induct` is induction on trees, in which what is assumed of the items of a list, of the
values of an object and of the arguments of a call is assumed of each member.  It is what
the `induction` tactic uses for expressions.
-/

namespace RuleLang.Expr

/-- A property that passes from the parts of every construct to the construct holds of every
expression. -/
@[elab_as_elim, induction_eliminator]
theorem induct {motive : Expr → Prop}
    (literal : ∀ l, motive (.literal l))
    (var : ∀ name, motive (.var name))
    (property : ∀ base name, motive base → motive (.property base name))
    (index : ∀ base key, motive base → motive key → motive (.index base key))
    (compare : ∀ op left right, motive left → motive right → motive (.compare op left right))
    (arithmetic : ∀ op left right, motive left → motive right →
      motive (.arithmetic op left right))
    (unary : ∀ op operand, motive operand → motive (.unary op operand))
    (and : ∀ left right, motive left → motive right → motive (.and left right))
    (or : ∀ left right, motive left → motive right → motive (.or left right))
    (not : ∀ operand, motive operand → motive (.not operand))
    (membership : ∀ op left right, motive left → motive right →
      motive (.membership op left right))
    (list : ∀ items, (∀ e ∈ items, motive e) → motive (.list items))
    (object : ∀ entries, (∀ entry ∈ entries, motive entry.2) → motive (.object entries))
    (call : ∀ name args, (∀ e ∈ args, motive e) → motive (.call name args))
    (duration : ∀ parts, motive (.duration parts))
    (relative : ∀ d direction, motive d → motive (.relative d direction)) :
    ∀ e, motive e
  := by
  intro e
  refine @Expr.rec motive (fun items => ∀ e ∈ items, motive e)
    (fun entries => ∀ entry ∈ entries, motive entry.2) (fun entry => motive entry.2)
    literal var property index compare arithmetic unary and or not membership list object
    call duration relative ?_ ?_ ?_ ?_ ?_ e
  · rintro _ ⟨⟩
  · intro e items he hitems
    simpa using ⟨he, hitems⟩
  · rintro _ ⟨⟩
  · intro entry entries hentry hentries entry' h
    obtain rfl | h := List.mem_cons.mp h
    · apply hentry
    · apply hentries entry' h
  · intro key e he
    apply he

end RuleLang.Expr
