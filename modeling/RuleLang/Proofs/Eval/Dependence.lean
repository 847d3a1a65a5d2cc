import Mathlib.Data.List.Basic
import Mathlib.Tactic.Use
import RuleLang.Eval.Builtin
import RuleLang.Proofs.Eval.Execution

/-!
# What the value of a program depends on

An instruction reads its environment in three ways: a load gives the value of its path, a call
gives what the function of its name makes of its arguments, and a relative date counts from
the present.  Environments that agree on each instruction of a program, as
`Environment.AgreeOn` says, give it the same value.

A path is resolved by way of its heads, which are the path itself and what stands before each
of its dots.  A program whose functions ignore the context has therefore the same value in all
contexts that give the same values to the heads of the paths it loads.
-/

namespace RuleLang

/-! ### Environments that agree -/

/-- Whether two environments are alike in what an instruction reads of them. -/
structure Environment.AgreeOn (env env' : Environment) (i : Instruction) : Prop where
  load_eq : ∀ path, i = .load path →
    Instruction.loadPath env path = Instruction.loadPath env' path
  call_eq : ∀ name n, i = .call name n → ∀ args,
    env.functions.call name args env.context env.clock
      = env'.functions.call name args env'.context env'.clock
  present_eq : env.present = env'.present

variable {env env' : Environment}

/-- An instruction has the same result where environments agree on it. -/
theorem Instruction.result_of_agreeOn {i : Instruction} (h : env.AgreeOn env' i)
    (operands : List Value) :
  i.result env operands = i.result env' operands
  := by
  unfold result
  split
  case h_2 path => apply h.load_eq path rfl
  case h_15 name n => apply h.call_eq name n rfl
  case h_17 direction v => rw [h.present_eq]
  all_goals rfl

/-- An instruction leaves the same stack, or fails alike, where environments agree on it. -/
theorem Instruction.execute_of_agreeOn {i : Instruction} (h : env.AgreeOn env' i)
    (stack : List Value) :
  i.execute env stack = i.execute env' stack
  := by
  simp only [execute, result_of_agreeOn h]

namespace Program

/-- A program leaves the same stack, or fails alike, where environments agree on all of its
instructions. -/
theorem exec_of_agreeOn {p : Program} (h : ∀ i ∈ p, env.AgreeOn env' i) (stack : List Value) :
  exec env p stack = exec env' p stack
  := by
  induction p generalizing stack with
  | nil => rfl
  | cons i p ih =>
    obtain ⟨hfirst, hrest⟩ := List.forall_mem_cons.mp h
    simp only [exec, Instruction.execute_of_agreeOn hfirst, ih hrest]

/-- A program has the same value where environments agree on all of its instructions. -/
theorem evaluate_of_agreeOn {p : Program} (h : ∀ i ∈ p, env.AgreeOn env' i) :
  p.evaluate env = p.evaluate env'
  := by
  rw [evaluate_eq, evaluate_eq, exec_of_agreeOn h]

end Program

/-! ### The heads of a path -/

namespace Context

/-- Whether a name is a path or stands in it before a dot. -/
def IsHead (name path : String) : Prop := name = path ∨ ∃ rest, path = name ++ "." ++ rest

/-- The heads of a path are the path and what its cuts leave before a dot. -/
theorem isHead_iff
    {name path : String} :
  IsHead name path ↔ name = path ∨ ∃ behind, (name.toList, behind) ∈ Text.cuts '.' path.toList
  := by
  apply or_congr_right
  constructor
  · rintro ⟨rest, rfl⟩
    exact ⟨rest.toList, Text.mem_cuts_iff.mpr (by simp)⟩
  · rintro ⟨behind, hmem⟩
    use String.ofList behind
    apply String.toList_inj.mp
    simp [Text.mem_cuts_iff.mp hmem]

/-- A path has the same value in contexts that give the same values to its heads. -/
theorem resolve_of_heads {c c' : Context} {path : String}
    (h : ∀ name, IsHead name path → c.find? name = c'.find? name) :
  c.resolve path = c'.resolve path
  := by
  have hwalk : c.walkFromName? path.toList = c'.walkFromName? path.toList := by
    unfold walkFromName?
    rw [← List.head?_filterMap, ← List.head?_filterMap]
    congr 1
    apply List.filterMap_congr
    rintro ⟨before, behind⟩ hmem
    have hhead : IsHead (String.ofList before) path := by
      refine isHead_iff.mpr (.inr ⟨behind, ?_⟩)
      rw [String.toList_ofList]
      apply List.mem_reverse.mp hmem
    dsimp only
    rw [h _ hhead]
  unfold resolve
  rw [h path (.inl rfl), hwalk]

end Context

/-! ### Functions that ignore the context -/

/-- Whether a function does not look at the context. -/
def Function.IgnoresContext (f : Function) : Prop :=
  ∀ args c c' clock, f.result args c clock = f.result args c' clock

namespace FunctionTable

/-- Whether no function of a table looks at the context. -/
def IgnoresContext (t : FunctionTable) : Prop :=
  ∀ name f, t.find? name = some f → f.IgnoresContext

/-- A table whose functions ignore the context calls them alike in every context. -/
theorem IgnoresContext.call_eq {t : FunctionTable} (h : t.IgnoresContext)
    (name : String) (args : List Value) (c c' : Context) (clock : DateTime) :
  t.call name args c clock = t.call name args c' clock
  := by
  unfold call
  cases hf : t.find? name with
  | none => rfl
  | some f => simp only [h name f hf args c c' clock]

/-- The built-in functions ignore the context. -/
theorem ignoresContext_of_mem_builtins {entry : String × Function} (h : entry ∈ Builtin.all) :
  entry.2.IgnoresContext
  := by
  intro args c c' clock
  simp only [Builtin.all, List.mem_cons, List.not_mem_nil, or_false] at h
  rcases h with rfl | rfl | rfl | rfl | rfl | rfl | rfl | rfl | rfl | rfl | rfl | rfl | rfl
    | rfl | rfl | rfl <;> rfl

/-- The functions of the table of the built-in functions ignore the context. -/
theorem ignoresContext_builtins :
  builtins.IgnoresContext
  := fun _ _ h => ignoresContext_of_mem_builtins (mem_of_find?_builtins h)

end FunctionTable

/-! ### Contexts that agree on the heads of paths -/

/-- A program whose functions ignore the context has the same value, or fails alike, in
contexts that give the same values to the heads of the paths it loads. -/
theorem Program.evaluate_of_heads {env : Environment} {p : Program} {c : Context}
    (hfunctions : env.functions.IgnoresContext)
    (hheads : ∀ path, .load path ∈ p → ∀ name, Context.IsHead name path →
      env.context.find? name = c.find? name) :
  p.evaluate env = p.evaluate { env with context := c }
  := by
  apply evaluate_of_agreeOn
  intro i hi
  exact {
    load_eq := by
      rintro path rfl
      unfold Instruction.loadPath
      rw [Context.resolve_of_heads (hheads path hi)]
    call_eq := fun name n _ args => hfunctions.call_eq name args _ _ _
    present_eq := rfl }

/-- What `name` and `user.names` are makes no difference to the length of `user.name`. -/
theorem Program.evaluate_of_heads_userName :
  let p : Program := [.load "user.name", .call "len" 1]
  let user : Value := .map [(.str "name", .str "Ann")]
  let env : Environment :=
    { context := ⟨[("name", .int 1), ("user", user)]⟩, functions := .builtins, options := {},
      clock := Date.midnight { number := 20000 } }
  let c : Context := ⟨[("user", user), ("user.names", .list [])]⟩
  (∀ path, .load path ∈ p → ∀ name, Context.IsHead name path →
      env.context.find? name = c.find? name)
    ∧ p.evaluate env = p.evaluate { env with context := c } ∧ p.evaluate env = .ok (.int 3)
  := by
  intro p user env c
  have hheads : ∀ path, .load path ∈ p → ∀ name, Context.IsHead name path →
      env.context.find? name = c.find? name := by
    intro path hpath name hname
    obtain rfl : path = "user.name" := by simpa [p] using hpath
    obtain rfl | ⟨behind, hcut⟩ := Context.isHead_iff.mp hname
    · rfl
    · have hcuts : Text.cuts '.' "user.name".toList = [("user".toList, "name".toList)] := rfl
      rw [hcuts, List.mem_singleton, Prod.mk.injEq] at hcut
      obtain rfl := String.toList_inj.mp hcut.1
      rfl
  exact ⟨hheads, evaluate_of_heads FunctionTable.ignoresContext_builtins hheads, rfl⟩

end RuleLang
