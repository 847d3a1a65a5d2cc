import Mathlib.Tactic.Use
import RuleLang.Proofs.Eval.Compilation

/-!
# Predicates over missing data

A variable that is missing is undefined, and an undefined value says nothing: `Value.Below v w`
says that `v` is undefined or is `w`.  Comparisons and logic are monotone in this order, except
that a value which takes the place of an undefined one may be of a kind that logic does not
take, so that evaluation fails with a mismatch.  `Kept` is this relation between two outcomes.

A predicate is built by comparisons and logic from literals and from variables that are no
dotted paths.  What it decides in a context, it decides alike in each context that extends this
one, as long as it does not fail there.
-/

namespace RuleLang

/-! ### Outcomes that are kept -/

/-- Whether a value is undefined or the same as another. -/
def Value.Below (v w : Value) : Prop := v = undefined ∨ v = w

/-- Whether an outcome says no more than another, which may be a mismatch: where the one is a
value, the other is a related value or a mismatch. -/
def Kept {α : Type} (R : α → α → Prop) (x y : Except EvalError α) : Prop :=
  ∀ a, x = .ok a →
    (∃ b, y = .ok b ∧ R a b) ∨ ∃ what values, y = .error (.mismatch what values)

namespace Kept

variable {α β γ : Type} {R : α → α → Prop} {S : β → β → Prop} {T : γ → γ → Prop}

theorem pure {a b : α} (h : R a b) :
  Kept R (.ok a) (.ok b)
  := by
  rintro _ ⟨⟩
  exact .inl ⟨b, rfl, h⟩

theorem mismatch {x : Except EvalError α} {what : Mismatch} {values : List Value} :
  Kept R x (.error (.mismatch what values))
  := fun _ _ => .inr ⟨what, values, rfl⟩

theorem error {e : EvalError} {y : Except EvalError α} :
  Kept R (.error e) y
  := by
  rintro _ ⟨⟩

/-- Where a step is kept, and the steps after it for related values, both together are kept. -/
theorem bind {x y : Except EvalError α} {f g : α → Except EvalError β} (h : Kept R x y)
    (hfg : ∀ a b, R a b → Kept S (f a) (g b)) :
  Kept S (x >>= f) (y >>= g)
  := by
  cases x with
  | error e => exact error
  | ok a =>
    obtain ⟨b, rfl, hab⟩ | ⟨what, values, rfl⟩ := h a rfl
    · exact hfg a b hab
    · exact mismatch

/-- Where two steps are kept, and what is made of related values, all together is kept. -/
theorem bind₂ {x x' : Except EvalError α} {y y' : Except EvalError β}
    {f f' : α → β → Except EvalError γ} (hx : Kept R x x') (hy : Kept S y y')
    (hf : ∀ a a' b b', R a a' → S b b' → Kept T (f a b) (f' a' b')) :
  Kept T (do f (← x) (← y)) (do f' (← x') (← y'))
  := by
  apply hx.bind
  intro a a' ha
  apply hy.bind
  intro b b' hb
  exact hf a a' b b' ha hb

end Kept

/-! ### Comparisons and logic -/

namespace Value

variable {a a' b b' : Value}

/-- A comparison says no less when its operands do, for it is undefined where one of them is. -/
theorem compare_below (op : CompareOp) (ha : a.Below a') (hb : b.Below b') :
  (compare op a b).Below (compare op a' b')
  := by
  obtain rfl | rfl := ha
  · exact .inl rfl
  · obtain rfl | rfl := hb
    · left
      unfold Value.compare
      apply if_pos
      apply Bool.or_true
    · exact .inr rfl

/-- A known operand of a conjunction or a disjunction is kept by the one that takes its place, and
what takes the place of an undefined operand may be a mismatch. -/
theorem truth_kept (what : Mismatch) (operands operands' : List Value) (ha : a.Below a') :
  Kept (fun x y => x = none ∨ x = y) (truth what operands a) (truth what operands' a')
  := by
  obtain rfl | rfl := ha
  · cases a' with
    | bool b => exact .pure (.inl rfl)
    | undefined => exact .pure (.inl rfl)
    | _ => exact .mismatch
  · cases a with
    | bool b => exact .pure (.inr rfl)
    | undefined => exact .pure (.inr rfl)
    | _ => exact .mismatch

/-- A conjunction that one operand decides is decided alike whatever the other becomes. -/
theorem and_kept (ha : a.Below a') (hb : b.Below b') :
  Kept Below (a.and b) (a'.and b')
  := by
  apply (truth_kept _ _ _ ha).bind₂ (truth_kept _ _ _ hb)
  intro x x' y y' hx hy
  -- the operands as they become, each of them unknown or the same before
  rcases x' with _ | _ | _ <;> rcases y' with _ | _ | _ <;>
    obtain rfl | rfl := hx <;> obtain rfl | rfl := hy <;> exact .pure (by simp [Below])

/-- A disjunction that one operand decides is decided alike whatever the other becomes. -/
theorem or_kept (ha : a.Below a') (hb : b.Below b') :
  Kept Below (a.or b) (a'.or b')
  := by
  apply (truth_kept _ _ _ ha).bind₂ (truth_kept _ _ _ hb)
  intro x x' y y' hx hy
  -- the operands as they become, each of them unknown or the same before
  rcases x' with _ | _ | _ <;> rcases y' with _ | _ | _ <;>
    obtain rfl | rfl := hx <;> obtain rfl | rfl := hy <;> exact .pure (by simp [Below])

theorem not_kept (ha : a.Below a') :
  Kept Below a.not a'.not
  := by
  obtain rfl | rfl := ha
  · cases a' with
    | bool b => exact .pure (.inl rfl)
    | undefined => exact .pure (.inl rfl)
    | _ => exact .mismatch
  · intro v hv
    exact .inl ⟨v, hv, .inr rfl⟩

end Value

/-! ### Variables -/

namespace Context

/-- Whether a context gives the same value to each name to which another one gives a defined
value. -/
def Extends (c' c : Context) : Prop :=
  ∀ name v, c.find? name = some v → v ≠ .undefined → c'.find? name = some v

/-- A context is extended when a name is given a value that had none, or an undefined one. -/
theorem extends_insert {c : Context} {name : String}
    (h : ∀ w, c.find? name = some w → w = .undefined) (v : Value) :
  (c.insert name v).Extends c
  := by
  intro other w hw hdefined
  rw [find?_insert, if_neg]
  · exact hw
  · rintro rfl
    exact hdefined (h w hw)

/-- A path without a dot has the value of its name. -/
theorem resolve_of_not_mem {c : Context} {name : String} (h : '.' ∉ name.toList) :
  c.resolve name = (c.find? name).getD .undefined
  := by
  have hcuts : Text.cuts '.' name.toList = [] := by
    apply List.eq_nil_iff_forall_not_mem.mpr
    rintro ⟨before, behind⟩ hmem
    rw [Text.mem_cuts_iff.mp hmem] at h
    simp at h
  unfold resolve walkFromName?
  rw [hcuts]
  cases c.find? name <;> rfl

/-- A name says no less in a context that extends another. -/
theorem Extends.resolve_below {c c' : Context} (hc : c'.Extends c) {name : String}
    (h : '.' ∉ name.toList) :
  (c.resolve name).Below (c'.resolve name)
  := by
  rw [resolve_of_not_mem h, resolve_of_not_mem h]
  cases hname : c.find? name with
  | none => exact .inl rfl
  | some v =>
    by_cases hv : v = .undefined
    · exact .inl hv
    · rw [hc name v hname hv]
      exact .inr rfl

end Context

/-- The value of a variable is kept in a context that extends another.  Where strict options make
an undefined variable fail, there is none to keep. -/
theorem Environment.variable_kept {env : Environment} {c : Context} (hc : c.Extends env.context)
    {name : String} (h : '.' ∉ name.toList) :
  Kept Value.Below (env.variable name) ({ env with context := c }.variable name)
  := by
  have hbelow := hc.resolve_below h
  rw [← Expr.loadPath_eq, ← Expr.loadPath_eq]
  unfold Instruction.loadPath
  dsimp only
  split
  · exact .error
  · rename_i hdefined
    rw [if_neg]
    · exact .pure hbelow
    · intro hundefined
      apply hdefined
      obtain hmissing | hsame := hbelow
      · rw [hmissing]
        exact Bool.and_eq_true_iff.mpr ⟨(Bool.and_eq_true_iff.mp hundefined).1, rfl⟩
      · rw [hsame]
        exact hundefined

/-! ### Predicates -/

namespace Expr

/-- The expressions that are built by comparisons and logic from literals and from variables
that are no dotted paths. -/
inductive IsPredicate : Expr → Prop where
  | literal (l : Literal) : IsPredicate (literal l)
  | var {name : String} (h : '.' ∉ name.toList) : IsPredicate (var name)
  | compare (op : CompareOp) {l r : Expr} (hl : IsPredicate l) (hr : IsPredicate r) :
    IsPredicate (compare op l r)
  | and {l r : Expr} (hl : IsPredicate l) (hr : IsPredicate r) : IsPredicate (and l r)
  | or {l r : Expr} (hl : IsPredicate l) (hr : IsPredicate r) : IsPredicate (or l r)
  | not {e : Expr} (he : IsPredicate e) : IsPredicate (not e)
  | bang {e : Expr} (he : IsPredicate e) : IsPredicate (unary .bang e)

namespace IsPredicate

variable {e : Expr} {env : Environment} {c : Context}

/-- The value of a predicate is kept in a context that extends another. -/
theorem evaluate_kept (he : e.IsPredicate) (hc : c.Extends env.context) :
  Kept Value.Below (e.evaluate env) (e.evaluate { env with context := c })
  := by
  induction he with
  | literal l => exact .pure (.inr rfl)
  | var h => exact Environment.variable_kept hc h
  | compare op hl hr ihl ihr =>
    apply ihl.bind₂ ihr
    intro a a' b b' ha hb
    exact .pure (Value.compare_below op ha hb)
  | and hl hr ihl ihr =>
    apply ihl.bind₂ ihr
    intro a a' b b' ha hb
    exact Value.and_kept ha hb
  | or hl hr ihl ihr =>
    apply ihl.bind₂ ihr
    intro a a' b b' ha hb
    exact Value.or_kept ha hb
  | not he ih =>
    apply ih.bind
    intro a a' ha
    exact Value.not_kept ha
  | bang he ih =>
    apply ih.bind
    intro a a' ha
    exact Value.not_kept ha

theorem width_eq (he : e.IsPredicate) :
  e.width = 0
  := by
  induction he <;> simp [width, *]

/-- The program of a predicate has its value. -/
theorem lower_evaluate (he : e.IsPredicate) :
  e.lower.evaluate env = e.evaluate env
  := by
  rw [Program.evaluate_eq, leaves_evaluate env e (by rw [he.width_eq]; decide) []]
  cases e.evaluate env with
  | error _ => rfl
  | ok v => rfl

end IsPredicate

/-- What a predicate decides in a context, it decides alike in each context that extends this
one, or it fails there with a mismatch. -/
theorem evaluate_of_extends {e : Expr} (he : e.IsPredicate) {env : Environment} {c : Context}
    (hc : c.Extends env.context) {v : Value} (hv : e.lower.evaluate env = .ok v)
    (hdefined : v ≠ .undefined) :
  e.lower.evaluate { env with context := c } = .ok v
    ∨ ∃ what values, e.lower.evaluate { env with context := c } = .error (.mismatch what values)
  := by
  rw [he.lower_evaluate] at hv ⊢
  obtain ⟨w, hw, hbelow⟩ | hmismatch := he.evaluate_kept hc v hv
  · left
    obtain rfl | rfl := hbelow
    · contradiction
    · exact hw
  · exact .inr hmismatch

/-- The age of 20 decides `age >= 18 OR NOT guest`, be there a guest or not. -/
theorem evaluate_of_extends_guest :
  let e : Expr := .or (.compare .greaterEqual (.var "age") (.literal (.int 18)))
    (.not (.var "guest"))
  let env : Environment :=
    { context := ⟨[("age", .int 20)]⟩, functions := {}, options := {},
      clock := Date.midnight { number := 20100 } }
  let c := env.context.insert "guest" (.bool true)
  e.IsPredicate ∧ c.Extends env.context ∧ e.lower.evaluate env = .ok (.bool true)
    ∧ e.lower.evaluate { env with context := c } = .ok (.bool true)
  := by
  intro e env c
  have he : e.IsPredicate :=
    .or (.compare _ (.var (by decide)) (.literal _)) (.not (.var (by decide)))
  have hc : c.Extends env.context := by
    apply Context.extends_insert
    rintro w ⟨⟩
  have hv : e.lower.evaluate env = .ok (.bool true) := rfl
  refine ⟨he, hc, hv, ?_⟩
  obtain hsame | ⟨what, values, hmismatch⟩ := evaluate_of_extends he hc hv (by simp)
  · exact hsame
  · cases hmismatch

end Expr

end RuleLang
