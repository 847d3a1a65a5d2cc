import RuleLang.Proofs.Eval.Dependence
import RuleLang.Proofs.Eval.Stepping

/-!
# Strict and lenient evaluation

Under strict options a load of a path without a value fails, under lenient ones it gives an
undefined value.  Nothing else differs: as long as no path that is loaded is undefined, both
executions go from the same stack to the same stack.  The first undefined path that the
lenient execution loads is therefore where the strict one ends, with that path in its failure.
-/

namespace RuleLang

/-- The environment with strict or with lenient options. -/
def Environment.withStrict (env : Environment) (strict : Bool) : Environment :=
  { env with options := { env.options with strict } }

/-- The path that an instruction loads. -/
def Instruction.loads? : Instruction → Option String
  | load path => some path
  | _ => none

/-- The paths that a program loads, in its order. -/
def Program.loads (p : Program) : List String := p.filterMap Instruction.loads?

/-- The first of some paths that has no value, or an undefined one. -/
def Context.firstUndefined? (c : Context) (paths : List String) : Option String :=
  paths.find? fun path => (c.resolve path).isUndefined

namespace Environment

variable (env : Environment)

/-- Strict and lenient options differ for undefined paths only. -/
theorem agreeOn_withStrict {i : Instruction}
    (h : ∀ path, i = .load path → (env.context.resolve path).isUndefined = false) :
  (env.withStrict true).AgreeOn (env.withStrict false) i
  where
  load_eq := by
    intro path hi
    have hdefined : ((env.withStrict true).context.resolve path).isUndefined = false := h path hi
    simp only [Instruction.loadPath, hdefined, Bool.and_false]
    rfl
  call_eq _ _ _ _ := rfl
  present_eq := rfl

end Environment

/-- A load of an undefined path fails under strict options. -/
theorem Instruction.execute_load_of_isUndefined {env : Environment} {path : String}
    (h : (env.context.resolve path).isUndefined = true) (stack : List Value) :
  (load path).execute (env.withStrict true) stack = (stack, some (.undefinedVariable path))
  := by
  have hpath : ((env.withStrict true).context.resolve path).isUndefined = true := h
  have hload : loadPath (env.withStrict true) path = .error (.undefinedVariable path) := by
    rw [loadPath, hpath]
    rfl
  simp only [execute, isTooLarge, arity, takeTop, result, hload]
  rfl

/-- An instruction that fails under lenient options fails alike under strict ones. -/
theorem Instruction.execute_withStrict_of_error {env : Environment} {i : Instruction}
    {stack below : List Value} {e : EvalError}
    (h : i.execute (env.withStrict false) stack = (below, some e)) :
  i.execute (env.withStrict true) stack = (below, some e)
  := by
  rw [← h]
  apply execute_of_agreeOn
  apply env.agreeOn_withStrict
  rintro path rfl
  -- a lenient load gives a value, be it undefined
  cases h

namespace Program

variable {env : Environment}

/-- The strict execution of instructions that the lenient one carries out goes the same way up
to the first undefined path, and fails there. -/
theorem exec_withStrict_of_ok {p : Program} {stack stack' : List Value}
    (h : exec (env.withStrict false) p stack = .ok stack') :
  exec (env.withStrict true) p stack =
    match env.context.firstUndefined? p.loads with
    | none => .ok stack'
    | some path => .error (.undefinedVariable path)
  := by
  induction p generalizing stack with
  | nil =>
    cases h
    rfl
  | cons i p ih =>
    obtain ⟨path, rfl, hpath⟩ | hdefined : (∃ path, i = .load path
        ∧ (env.context.resolve path).isUndefined = true)
        ∨ ∀ path, i = .load path → (env.context.resolve path).isUndefined = false := by
      grind
    · have hfirst : env.context.firstUndefined? (loads (.load path :: p)) = some path :=
        List.find?_cons_of_pos hpath
      rw [hfirst, exec, Instruction.execute_load_of_isUndefined hpath]
      rfl
    · have hfirst : env.context.firstUndefined? (loads (i :: p))
          = env.context.firstUndefined? (loads p) := by
        cases i with
        | load path =>
          have hpath := hdefined path rfl
          exact List.find?_cons_of_neg (by simp [hpath])
        | _ => rfl
      rw [hfirst]
      have hexecute := Instruction.execute_of_agreeOn (env.agreeOn_withStrict hdefined) stack
      simp only [exec, hexecute] at h ⊢
      split at h
      · apply ih h
      · cases h

/-- A program is executed up to one of its instructions, and then from there. -/
theorem exec_of_getElem? {p : Program} {n : Nat} {i : Instruction} (hi : p[n]? = some i)
    (stack : List Value) :
  exec env p stack = exec env (p.take n) stack >>= exec env (i :: p.drop (n + 1))
  := by
  obtain ⟨hlt, rfl⟩ := List.getElem?_eq_some_iff.mp hi
  rw [← List.drop_eq_getElem_cons hlt, ← exec_append, List.take_append_drop]

/-- Strict options change the value of a program only by the first undefined path that the
lenient machine has loaded when it halts, and then to the failure that names this path. -/
theorem evaluate_withStrict
    (env : Environment) (p : Program) :
  let lenient := env.withStrict false
  let strict := env.withStrict true
  let m := ((Machine.start p).stepMany lenient p.length).1
  m.halted = true ∧ m.steps = m.ip
    ∧ p.evaluate strict =
      (match env.context.firstUndefined? (loads (p.take m.ip)) with
      | none => p.evaluate lenient
      | some path => .error (.undefinedVariable path))
    ∧ ∀ v, p.evaluate strict = .ok v → p.evaluate lenient = .ok v
  := by
  intro lenient strict m
  have h : Machine.Follows lenient p ((Machine.start p).stepMany lenient p.length).2 m :=
    (Machine.follows_start lenient p).stepMany p.length
  have hend : ((Machine.start p).stepMany lenient p.length).2 = [] → m.ip = p.length := by
    intro hnone
    have hip := (Machine.follows_start lenient p).ip_stepMany hnone
    rw [hip]
    simp [Machine.start]
  have hhalted : m.halted = true := by
    rw [← Bool.not_eq_false, h.halted_iff]
    rintro ⟨hnone, hlt⟩
    have hip := hend hnone
    omega
  have hvalue : p.evaluate strict =
      match env.context.firstUndefined? (loads (p.take m.ip)) with
      | none => p.evaluate lenient
      | some path => .error (.undefinedVariable path) := by
    generalize ((Machine.start p).stepMany lenient p.length).2 = failures at h hend
    cases failures with
    | nil =>
      have hbehind := h.exec_eq rfl
      rw [hend rfl, List.take_length] at hbehind ⊢
      rw [evaluate_eq, evaluate_eq, exec_withStrict_of_ok hbehind, hbehind]
      split <;> rfl
    | cons e failures =>
      obtain ⟨i, stack, hi, hbehind, hexecute⟩ := h.failed e List.mem_cons_self
      rw [h.evaluate_eq_error List.mem_cons_self, evaluate_eq, exec_of_getElem? hi,
        exec_withStrict_of_ok hbehind]
      split
      · change exec strict (i :: p.drop (m.ip + 1)) stack >>= result = _
        rw [exec, Instruction.execute_withStrict_of_error hexecute]
        rfl
      · rfl
  refine ⟨hhalted, h.steps_eq, hvalue, ?_⟩
  intro v hv
  rw [hvalue] at hv
  split at hv
  · apply hv
  · cases hv

end Program

end RuleLang
