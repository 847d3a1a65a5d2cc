import Mathlib.Algebra.Group.Nat.Defs
import RuleLang.Proofs.Eval.Direct
import RuleLang.Proofs.Eval.Execution
import RuleLang.Proofs.Eval.Failure

/-!
# Correctness of lowering

The program of an expression has the value that the expression has by direct evaluation,
and fails as that fails.  `Program.Leaves env p r` says that `p` puts the values `r` on top
of any stack, or fails as `r` does; the program of an expression leaves the value of the
expression.
-/

namespace RuleLang

/-- The program `p` puts the values of `r` on top of every stack, the first one lowest, or
fails as `r` does. -/
def Program.Leaves (env : Environment) (p : Program) (r : Except EvalError (List Value)) :
    Prop :=
  ∀ stack, p.exec env stack = r.map fun vs => vs.reverse ++ stack

/-- The key of a map as a value. -/
def MapKey.toValue : MapKey → Value
  | str s => .str s
  | int n => .int n

/-- Keys and values of a map by turns. -/
def Value.alternate : List (MapKey × Value) → List Value
  | [] => []
  | (k, v) :: rest => k.toValue :: v :: alternate rest

@[simp]
theorem Value.length_alternate
    (entries : List (MapKey × Value)) :
  (alternate entries).length = 2 * entries.length
  := by
  induction entries with
  | nil => rfl
  | cons entry entries ih =>
    simp only [alternate, List.length_cons, ih]
    omega

/-- Keys and values by turns make the entries they come from. -/
@[simp]
theorem Instruction.entriesOf_alternate
    (entries : List (MapKey × Value)) :
  entriesOf (Value.alternate entries) = .ok entries
  := by
  induction entries with
  | nil => rfl
  | cons entry entries ih =>
    obtain ⟨k, v⟩ := entry
    cases k with
    | str s =>
      simp only [Value.alternate, MapKey.toValue, entriesOf, ih]
      rfl
    | int n =>
      simp only [Value.alternate, MapKey.toValue, entriesOf, ih]
      rfl

namespace Program.Leaves

variable {env : Environment} {p q : Program} {r s : Except EvalError (List Value)}

theorem nil :
  Leaves env [] (.ok [])
  := fun _ => rfl

/-- Two programs leave the values of both. -/
theorem append
    (hp : Leaves env p r) (hq : Leaves env q s) :
  Leaves env (p ++ q) (do return (← r) ++ (← s))
  := by
  intro stack
  rw [exec_append, hp]
  cases r with
  | error e => rfl
  | ok vs =>
    apply Eq.trans (hq (vs.reverse ++ stack))
    cases s with
    | error e => rfl
    | ok ws =>
      change _ = Except.ok ((vs ++ ws).reverse ++ stack)
      rw [List.reverse_append, List.append_assoc]
      rfl

/-- An instruction behind a program that leaves its operands leaves its result. -/
theorem instruction {α : Type} {i : Instruction} {x : Except EvalError α} {g : α → List Value}
    {f : α → Except EvalError Value} (hp : Leaves env p (x.map g))
    (hn : ∀ a, x = .ok a → (g a).length = i.arity) (hi : i.isTooLarge = false)
    (hf : ∀ a, i.result env (g a) = f a) :
  Leaves env (p ++ [i]) ((x >>= f).map fun v => [v])
  := by
  intro stack
  rw [exec_append, hp]
  cases x with
  | error e => rfl
  | ok a =>
    apply Eq.trans (Instruction.exec_operands env i (g a) stack (hn a rfl) hi)
    rw [hf]
    change _ = Except.map _ ((f a).map fun v => [v])
    cases f a with
    | error e => rfl
    | ok v => rfl

/-- An instruction without operands leaves its result. -/
theorem single {i : Instruction} {x : Except EvalError Value}
    (hx : i.result env [] = x) (hn : i.arity = 0 := by rfl)
    (hi : i.isTooLarge = false := by rfl) :
  Leaves env [i] (x.map fun v => [v])
  := by
  have h := instruction (x := .ok ()) (g := fun _ => []) (f := fun _ => x) (p := []) nil
    (fun _ _ => hn.symm) hi (fun _ => hx)
  apply h

/-- An instruction of one operand leaves its result for the value before it. -/
theorem unary {i : Instruction} {x : Except EvalError Value}
    {f : Value → Except EvalError Value} (hp : Leaves env p (x.map fun v => [v]))
    (hf : ∀ v, i.result env [v] = f v) (hn : i.arity = 1 := by rfl)
    (hi : i.isTooLarge = false := by rfl) :
  Leaves env (p ++ [i]) ((x >>= f).map fun v => [v])
  := instruction hp (fun _ _ => hn.symm) hi hf

/-- An instruction of two operands leaves its result for the values of the two programs
before it. -/
theorem binary {i : Instruction} {x y : Except EvalError Value}
    {f : Value → Value → Except EvalError Value} (hp : Leaves env p (x.map fun v => [v]))
    (hq : Leaves env q (y.map fun v => [v])) (hf : ∀ v w, i.result env [v, w] = f v w)
    (hn : i.arity = 2 := by rfl) (hi : i.isTooLarge = false := by rfl) :
  Leaves env (p ++ q ++ [i]) ((do f (← x) (← y)).map fun v => [v])
  := by
  have hpq := append hp hq
  cases x with
  | error e =>
    apply instruction (x := .error e) (g := fun v => [v, v]) (f := fun v => f v v) hpq
    · rintro v ⟨⟩
    · apply hi
    · intro v
      apply hf
  | ok v =>
    cases y with
    | error e =>
      apply instruction (x := .error e) (g := fun w => [v, w]) (f := f v) hpq
      · rintro w ⟨⟩
      · apply hi
      · apply hf
    | ok w =>
      apply instruction (x := .ok w) (g := fun w => [v, w]) (f := f v) hpq
      · intro _ _
        apply hn.symm
      · apply hi
      · apply hf

end Program.Leaves

namespace Expr

/-! ### Sequences -/

/-- There are as many values as expressions. -/
theorem length_of_evaluateItems
    {env : Environment} {items : List Expr} {vs : List Value}
    (h : evaluateItems env items = .ok vs) :
  vs.length = items.length
  := by
  induction items generalizing vs with
  | nil =>
    obtain rfl := Except.ok.inj h
    rfl
  | cons e items ih =>
    obtain ⟨v, -, h⟩ := Except.bind_eq_ok_iff.mp h
    obtain ⟨ws, hws, h⟩ := Except.bind_eq_ok_iff.mp h
    obtain rfl := Except.ok.inj h
    rw [List.length_cons, List.length_cons, ih hws]

/-- There are as many keys with values as entries. -/
theorem length_of_evaluateEntries
    {env : Environment} {entries : List (String × Expr)} {vs : List (MapKey × Value)}
    (h : evaluateEntries env entries = .ok vs) :
  vs.length = entries.length
  := by
  induction entries generalizing vs with
  | nil =>
    obtain rfl := Except.ok.inj h
    rfl
  | cons entry entries ih =>
    obtain ⟨v, -, h⟩ := Except.bind_eq_ok_iff.mp h
    obtain ⟨ws, hws, h⟩ := Except.bind_eq_ok_iff.mp h
    obtain rfl := Except.ok.inj h
    rw [List.length_cons, List.length_cons, ih hws]

/-- The programs of expressions one after the other leave the values of all. -/
theorem leaves_items {env : Environment} {items : List Expr}
    (h : ∀ e ∈ items, Program.Leaves env e.lower ((e.evaluate env).map fun v => [v])) :
  Program.Leaves env (lowerItems items) ((evaluateItems env items).map id)
  := by
  induction items with
  | nil => apply Program.Leaves.nil
  | cons e items ih =>
    have hrest := ih fun e' he' => h e' (List.mem_cons_of_mem _ he')
    have hboth := (h e List.mem_cons_self).append hrest
    rw [lowerItems, evaluateItems]
    cases he : e.evaluate env with
    | error _ =>
      rw [he] at hboth
      apply hboth
    | ok v =>
      cases hvs : evaluateItems env items with
      | error _ =>
        rw [he, hvs] at hboth
        apply hboth
      | ok vs =>
        rw [he, hvs] at hboth
        apply hboth

/-- The programs of entries one after the other leave keys and values by turns. -/
theorem leaves_entries {env : Environment} {entries : List (String × Expr)}
    (h : ∀ entry ∈ entries,
      Program.Leaves env entry.2.lower ((entry.2.evaluate env).map fun v => [v])) :
  Program.Leaves env (lowerEntries entries)
    ((evaluateEntries env entries).map Value.alternate)
  := by
  induction entries with
  | nil => apply Program.Leaves.nil
  | cons entry entries ih =>
    obtain ⟨key, e⟩ := entry
    have hrest := ih fun e' he' => h e' (List.mem_cons_of_mem _ he')
    have hkey : Program.Leaves env [.literal (.str key)] (.ok [.str key]) :=
      Program.Leaves.single (x := .ok (.str key)) rfl
    have hall := (hkey.append (h (key, e) List.mem_cons_self)).append hrest
    rw [lowerEntries, evaluateEntries]
    cases he : e.evaluate env with
    | error _ =>
      rw [he] at hall
      apply hall
    | ok v =>
      cases hws : evaluateEntries env entries with
      | error _ =>
        rw [he, hws] at hall
        apply hall
      | ok ws =>
        rw [he, hws] at hall
        apply hall

/-! ### Constants -/

/-- Constants that have their values in an environment have them together. -/
theorem evaluateItems_of_constants? {env : Environment} {items : List Expr} {vs : List Value}
    (h : ∀ e ∈ items, ∀ v, e.constant? = some v → e.evaluate env = .ok v)
    (hvs : constants? items = some vs) :
  evaluateItems env items = .ok vs
  := by
  induction items generalizing vs with
  | nil =>
    obtain rfl := Option.some.inj hvs
    rfl
  | cons e items ih =>
    obtain ⟨v, hv, hvs⟩ := Option.bind_eq_some_iff.mp hvs
    obtain ⟨ws, hws, hvs⟩ := Option.bind_eq_some_iff.mp hvs
    obtain rfl := Option.some.inj hvs
    have he := h e List.mem_cons_self v hv
    have hrest := ih (fun e' he' => h e' (List.mem_cons_of_mem _ he')) hws
    rw [evaluateItems, he, hrest]
    rfl

/-- A constant has its value in every environment. -/
theorem evaluate_of_constant?
    (env : Environment) (e : Expr) {v : Value} (h : e.constant? = some v) :
  e.evaluate env = .ok v
  := by
  induction e generalizing v with
  | literal l =>
    obtain rfl := Option.some.inj h
    rfl
  | list items ih =>
    obtain ⟨vs, hvs, rfl⟩ := Option.map_eq_some_iff.mp h
    rw [evaluate, evaluateItems_of_constants? (fun e he _ hv => ih e he hv) hvs]
    rfl
  | _ => cases h

/-! ### Every construct -/

/-- A number of entries below `2 ^ 63` is a word without a sign. -/
theorem toNat_ofNat_count {n : Nat} (h : n < 2 ^ 63) :
  (UInt64.ofNat n).toNat = n
  := by
  apply UInt64.toNat_ofNat_of_lt'
  apply Nat.lt_trans h
  decide

/-- The program of a list leaves the list of the values of its items. -/
theorem leaves_list {env : Environment} {items : List Expr} (hn : items.length < 2 ^ 63)
    (h : ∀ e ∈ items, Program.Leaves env e.lower ((e.evaluate env).map fun v => [v])) :
  Program.Leaves env (list items).lower (((list items).evaluate env).map fun v => [v])
  := by
  rw [lower, evaluate]
  cases hvs : constants? items with
  | some vs =>
    have hvalues : evaluateItems env items = .ok vs :=
      evaluateItems_of_constants? (fun e _ _ hv => evaluate_of_constant? env e hv) hvs
    rw [hvalues]
    apply Program.Leaves.single (x := .ok (.list vs))
    rfl
  | none =>
    apply Program.Leaves.instruction (leaves_items h)
    · intro vs hvs
      rw [Instruction.arity, toNat_ofNat_count hn]
      apply length_of_evaluateItems hvs
    · rfl
    · intro vs
      rfl

/-- The program of an object leaves the map of its keys and values. -/
theorem leaves_object {env : Environment} {entries : List (String × Expr)}
    (hn : entries.length < 2 ^ 63)
    (h : ∀ entry ∈ entries,
      Program.Leaves env entry.2.lower ((entry.2.evaluate env).map fun v => [v])) :
  Program.Leaves env (object entries).lower
    (((object entries).evaluate env).map fun v => [v])
  := by
  rw [lower, evaluate]
  apply Program.Leaves.instruction (leaves_entries h)
  · intro vs hvs
    rw [Instruction.arity, toNat_ofNat_count hn, Value.length_alternate,
      length_of_evaluateEntries hvs]
  · rw [Instruction.isTooLarge, toNat_ofNat_count hn, decide_eq_false_iff_not]
    omega
  · intro vs
    simp only [Instruction.result, Instruction.entriesOf_alternate]
    rfl

/-- The program of a call leaves the result of the function for the values of the
arguments. -/
theorem leaves_call {env : Environment} (name : String) {args : List Expr}
    (hn : args.length < 2 ^ 63)
    (h : ∀ e ∈ args, Program.Leaves env e.lower ((e.evaluate env).map fun v => [v])) :
  Program.Leaves env (call name args).lower (((call name args).evaluate env).map fun v => [v])
  := by
  rw [lower, evaluate]
  apply Program.Leaves.instruction (leaves_items h)
  · intro vs hvs
    rw [Instruction.arity, toNat_ofNat_count hn]
    apply length_of_evaluateItems hvs
  · rfl
  · intro vs
    rfl

/-- The value of a path is what loading it leaves. -/
theorem loadPath_eq
    (env : Environment) (path : String) :
  Instruction.loadPath env path = env.variable path
  := by
  unfold Instruction.loadPath Environment.variable
  cases env.context.resolve path with
  | undefined => cases env.options.strict <;> rfl
  | _ => simp [Value.isUndefined]

/-- The program of an expression leaves its value. -/
theorem leaves_evaluate
    (env : Environment) (e : Expr) (h : e.width < 2 ^ 63) :
  Program.Leaves env e.lower ((e.evaluate env).map fun v => [v])
  := by
  induction e with
  | literal l => apply Program.Leaves.single (x := .ok l.toValue) rfl
  | var name => exact Program.Leaves.single (loadPath_eq env name)
  | property base name ih =>
    rw [lower, evaluate, path?]
    cases base.path? with
    | some path => exact Program.Leaves.single (loadPath_eq env _)
    | none => exact (ih h).unary fun _ => rfl
  | index base key ihbase ihkey =>
    rw [width] at h
    exact (ihbase (by omega)).binary (ihkey (by omega)) fun _ _ => rfl
  | compare op l r ihl ihr =>
    rw [width] at h
    exact (ihl (by omega)).binary (ihr (by omega)) fun _ _ => rfl
  | arithmetic op l r ihl ihr =>
    rw [width] at h
    exact (ihl (by omega)).binary (ihr (by omega)) fun _ _ => rfl
  | unary op e ih =>
    cases op with
    | minus => exact (ih h).unary fun _ => rfl
    | bang => exact (ih h).unary fun _ => rfl
  | and l r ihl ihr =>
    rw [width] at h
    exact (ihl (by omega)).binary (ihr (by omega)) fun _ _ => rfl
  | or l r ihl ihr =>
    rw [width] at h
    exact (ihl (by omega)).binary (ihr (by omega)) fun _ _ => rfl
  | not e ih => exact (ih h).unary fun _ => rfl
  | membership op l r ihl ihr =>
    rw [width] at h
    exact (ihl (by omega)).binary (ihr (by omega)) fun _ _ => rfl
  | list items ih =>
    rw [width] at h
    apply leaves_list (by omega)
    intro e he
    have hle := width_le_itemsWidth he
    apply ih e he
    omega
  | object entries ih =>
    rw [width] at h
    apply leaves_object (by omega)
    intro entry hentry
    have hle := width_le_entriesWidth hentry
    apply ih entry hentry
    omega
  | call name args ih =>
    rw [width] at h
    apply leaves_call name (by omega)
    intro e he
    have hle := width_le_itemsWidth he
    apply ih e he
    omega
  | duration parts => apply Program.Leaves.single rfl
  | relative d direction ih =>
    refine (ih h).unary fun v => ?_
    cases v <;> rfl

/-- The program of an expression without lists, objects or calls of `2 ^ 63` or more entries
has the value of the expression, and fails as the expression fails.  It never lacks operands,
leaves more than one value, or meets an instruction that cannot be carried out. -/
theorem evaluate_lower
    (env : Environment) (e : Expr) (h : e.width < 2 ^ 63) :
  e.lower.evaluate env = e.evaluate env
    ∧ ∀ failure, e.lower.evaluate env = .error failure →
        failure.reason? ≠ some .stackUnderflow ∧ failure.reason? ≠ some .unbalancedStack
          ∧ failure.reason? ≠ some .invalidInstruction
  := by
  have heq : e.lower.evaluate env = e.evaluate env := by
    rw [Program.evaluate_eq, leaves_evaluate env e h []]
    cases e.evaluate env with
    | error _ => rfl
    | ok v => rfl
  use heq
  intro failure hfailure
  rw [heq] at hfailure
  have hvalues := ofValues_evaluate env e failure hfailure
  cases failure <;> simp_all [EvalError.OfProgram, EvalError.reason?]

/-- The program of `[a, {k: 1, k: b}, 2 / c]` fails as the division of its last item does. -/
theorem evaluate_lower_division :
  let e : Expr := .list [.var "a", .object [("k", .literal (.int 1)), ("k", .var "b")],
    .arithmetic .divide (.literal (.int 2)) (.var "c")]
  let env : Environment :=
    { context := ⟨[("a", .int 3), ("b", .bool true), ("c", .int 0)]⟩, functions := {},
      options := { now := some (Date.midnight { number := 1 }) },
      clock := Date.midnight { number := 0 } }
  e.width < 2 ^ 63 ∧ e.lower.evaluate env = .error .divisionByZero
  := by
  intro e env
  have hwidth : e.width < 2 ^ 63 := by decide
  use hwidth
  rw [(evaluate_lower env e hwidth).1]
  rfl

end Expr

end RuleLang
