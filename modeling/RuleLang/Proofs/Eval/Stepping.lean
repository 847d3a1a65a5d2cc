import RuleLang.Proofs.Eval.StackHeight

/-!
# Machines step by step

`Machine.stepMany` takes a number of steps and collects their failures.  What holds of every
machine that steps reach from the beginning of a program is `Machine.Follows`: as long as no
step has failed, the machine stands where the execution of the instructions behind it stands,
and a step that fails stops it there.  The height of its stack is that of the program text.
-/

namespace RuleLang

namespace Machine

/-- The machine after a number of steps, and the failures of these steps. -/
def stepMany (env : Environment) : Nat → Machine → Machine × List EvalError
  | 0, m => (m, [])
  | n + 1, m =>
    let (next, failure) := m.step env
    let (last, failures) := stepMany env n next
    (last, failure.toList ++ failures)

theorem stepMany_succ
    (env : Environment) (n : Nat) (m : Machine) :
  m.stepMany env (n + 1) =
    (((m.step env).1.stepMany env n).1,
      (m.step env).2.toList ++ ((m.step env).1.stepMany env n).2)
  := rfl

/-! ### Halted machines -/

theorem step_of_halted {env : Environment} {m : Machine} (h : m.halted = true) :
  m.step env = (m, none)
  := if_pos h

/-- A halted machine gives what its stack leaves. -/
theorem run_of_halted {env : Environment} {m : Machine} (h : m.halted = true) :
  m.run env = Program.result m.stack
  := by
  rw [← finish_eq, run]
  cases m.ahead with
  | nil => rfl
  | cons i ahead =>
    rw [runAlong, step_of_halted h]
    dsimp only
    rw [if_pos h]

/-! ### Reached machines -/

/-- Whether a machine stands where the steps from the beginning of `p` lead, of which the given
ones have failed. -/
structure Follows (env : Environment) (p : Program) (failures : List EvalError) (m : Machine) :
    Prop where
  ahead_eq : m.ahead = p.drop m.ip
  steps_eq : m.steps = m.ip
  ip_le : m.ip ≤ p.length
  halted_iff : m.halted = false ↔ failures = [] ∧ m.ip < p.length
  /-- Without a failure, the instructions behind the machine have been executed. -/
  exec_eq : failures = [] → Program.exec env (p.take m.ip) [] = .ok m.stack
  /-- A failure is that of the next instruction, which has been tried. -/
  failed : ∀ e ∈ failures, ∃ i stack, p[m.ip]? = some i
    ∧ Program.exec env (p.take m.ip) [] = .ok stack ∧ i.execute env stack = (m.stack, some e)

theorem follows_start
    (env : Environment) (p : Program) :
  Follows env p [] (start p)
  where
  ahead_eq := rfl
  steps_eq := rfl
  ip_le := Nat.zero_le _
  halted_iff := by cases p <;> simp [start]
  exec_eq _ := rfl
  failed := nofun

namespace Follows

variable {env : Environment} {p : Program} {failures : List EvalError} {m : Machine}

/-- A machine that stands at an instruction has it ahead. -/
theorem ahead_eq_cons (h : Follows env p failures m) {i : Instruction} (hi : p[m.ip]? = some i) :
  m.ahead = i :: p.drop (m.ip + 1)
  := by
  obtain ⟨hlt, rfl⟩ := List.getElem?_eq_some_iff.mp hi
  rw [h.ahead_eq, List.drop_eq_getElem_cons hlt]

/-- A machine that has not halted tries the instruction at which it stands. -/
theorem step_eq (h : Follows env p failures m) (hm : m.halted = false) {i : Instruction}
    (hi : p[m.ip]? = some i) :
  m.step env =
    match i.execute env m.stack with
    | (stack, some e) => ({ m with stack, halted := true }, some e)
    | (stack, none) =>
      (⟨p.drop (m.ip + 1), m.ip + 1, m.steps + 1, stack, (p.drop (m.ip + 1)).isEmpty⟩, none)
  := by
  rw [Machine.step, hm, h.ahead_eq_cons hi]
  rfl

/-- A step leads on. -/
theorem step (h : Follows env p failures m) :
  Follows env p (failures ++ (m.step env).2.toList) (m.step env).1
  := by
  cases hm : m.halted with
  | true =>
    rw [step_of_halted hm, Option.toList_none, List.append_nil]
    apply h
  | false =>
    obtain ⟨rfl, hlt⟩ := h.halted_iff.mp hm
    obtain ⟨i, hi⟩ : ∃ i, p[m.ip]? = some i := ⟨_, List.getElem?_eq_getElem hlt⟩
    have hbehind := h.exec_eq rfl
    rw [h.step_eq hm hi]
    cases hexecute : i.execute env m.stack with
    | mk stack failure =>
    cases failure with
    | some e =>
      exact {
        ahead_eq := h.ahead_eq
        steps_eq := h.steps_eq
        ip_le := h.ip_le
        halted_iff := by simp
        exec_eq := by simp
        failed := List.forall_mem_singleton.mpr ⟨i, m.stack, hi, hbehind, hexecute⟩ }
    | none =>
      have hnext : Program.exec env (p.take (m.ip + 1)) [] = .ok stack := by
        rw [List.take_add_one, hi, Option.toList_some, Program.exec_append, hbehind]
        change Program.exec env [i] m.stack = .ok stack
        simp only [Program.exec, hexecute]
        rfl
      exact {
        ahead_eq := rfl
        steps_eq := congrArg (· + 1) h.steps_eq
        ip_le := hlt
        halted_iff := by simp
        exec_eq := fun _ => hnext
        failed := List.forall_mem_nil _ }

/-- Steps lead on. -/
theorem stepMany (h : Follows env p failures m) (n : Nat) :
  Follows env p (failures ++ (m.stepMany env n).2) (m.stepMany env n).1
  := by
  induction n generalizing failures m with
  | zero =>
    change Follows env p (failures ++ []) m
    rw [List.append_nil]
    apply h
  | succ n ih =>
    rw [stepMany_succ, ← List.append_assoc]
    apply ih h.step

/-- A step that does not fail passes an instruction, if one is left. -/
theorem ip_step (h : Follows env p [] m) (hn : (m.step env).2 = none) :
  (m.step env).1.ip = min (m.ip + 1) p.length
  := by
  cases hm : m.halted with
  | true =>
    have hle := h.ip_le
    have hend : ¬m.ip < p.length := by
      intro hlt
      have hrunning := h.halted_iff.mpr ⟨rfl, hlt⟩
      rw [hm] at hrunning
      cases hrunning
    rw [step_of_halted hm]
    dsimp only
    omega
  | false =>
    obtain ⟨-, hlt⟩ := h.halted_iff.mp hm
    have hi := List.getElem?_eq_getElem hlt
    rw [h.step_eq hm hi] at hn ⊢
    cases hexecute : p[m.ip].execute env m.stack with
    | mk stack failure =>
    rw [hexecute] at hn
    cases failure with
    | some e => cases hn
    | none =>
      dsimp only
      omega

/-- Steps of which none fails pass an instruction each, until there are no more. -/
theorem ip_stepMany (h : Follows env p [] m) {n : Nat} (hn : (m.stepMany env n).2 = []) :
  (m.stepMany env n).1.ip = min (m.ip + n) p.length
  := by
  induction n generalizing m with
  | zero =>
    have hle := h.ip_le
    change m.ip = _
    omega
  | succ n ih =>
    rw [stepMany_succ] at hn ⊢
    obtain ⟨hfirst, hrest⟩ := List.append_eq_nil_iff.mp hn
    have hstep := h.step
    rw [hfirst, List.append_nil] at hstep
    rw [ih hstep hrest, h.ip_step (Option.toList_eq_nil_iff.mp hfirst)]
    omega

/-- The program of a machine with a failure has that failure. -/
theorem evaluate_eq_error (h : Follows env p failures m) {e : EvalError} (he : e ∈ failures) :
  p.evaluate env = .error e
  := by
  obtain ⟨i, stack, hi, hbehind, hexecute⟩ := h.failed e he
  obtain ⟨hlt, rfl⟩ := List.getElem?_eq_some_iff.mp hi
  have hparts := Program.exec_append env (p.take m.ip) (p.drop m.ip) []
  rw [List.take_append_drop, hbehind, List.drop_eq_getElem_cons hlt] at hparts
  rw [Program.evaluate_eq, hparts]
  change Program.exec env (p[m.ip] :: p.drop (m.ip + 1)) stack >>= _ = _
  rw [Program.exec, hexecute]
  rfl

end Follows

/-! ### Every number of steps -/

/-- A step that has failed leaves its mark on the program but not on the machine.  The program
has that failure; the machine gives whatever value the instruction at which it stands has
spared, if that is a single one. -/
theorem run_of_failed {env : Environment} {p : Program} {n : Nat} {e : EvalError}
    (he : e ∈ ((start p).stepMany env n).2) :
  let m := ((start p).stepMany env n).1
  p.evaluate env = .error e
    ∧ m.run env = Program.result m.stack
    ∧ ∃ i, p[m.ip]? = some i
      ∧ m.stack.length = i.spare (Program.height (p.take m.ip))
      ∧ ((∃ v, m.run env = .ok v) ↔ i.spare (Program.height (p.take m.ip)) = 1)
  := by
  intro m
  have h : Follows env p ((start p).stepMany env n).2 m := (follows_start env p).stepMany n
  have hhalted : m.halted = true := by
    rw [← Bool.not_eq_false, h.halted_iff]
    rintro ⟨hnone, -⟩
    rw [hnone] at he
    cases he
  obtain ⟨i, stack, hi, hbehind, hexecute⟩ := h.failed e he
  have hlength : (m.stack.length : Int) = i.spare (Program.height (p.take m.ip)) := by
    have hspare := i.length_execute env stack
    have hheight := Program.length_of_exec hbehind
    rw [hexecute, if_neg nofun] at hspare
    rw [hspare, hheight]
    exact congrArg _ (Int.zero_add _)
  refine ⟨h.evaluate_eq_error he, run_of_halted hhalted, i, hi, hlength, ?_⟩
  rw [run_of_halted hhalted, Program.exists_result_iff, ← hlength]
  omega

/-- The machine of `1 + -"a"` has failed at the negation after three steps, and then gives `1`,
which lies below. -/
theorem run_of_failed_negation :
  let p : Program := [.literal (.int 1), .literal (.str "a"), .unary .minus, .arithmetic .add]
  let env : Environment :=
    { context := {}, functions := {}, options := {}, clock := Date.midnight { number := 19358 } }
  let m := ((start p).stepMany env 3).1
  ((start p).stepMany env 3).2 = [.mismatch .negate [.str "a"]]
    ∧ p.evaluate env = .error (.mismatch .negate [.str "a"]) ∧ m.run env = .ok (.int 1)
  := by
  intro p env m
  have hfailures : ((start p).stepMany env 3).2 = [.mismatch .negate [.str "a"]] := rfl
  have he : .mismatch .negate [.str "a"] ∈ ((start p).stepMany env 3).2 := by
    rw [hfailures]
    apply List.mem_singleton_self
  obtain ⟨hevaluate, hrun, -⟩ := run_of_failed he
  exact ⟨hfailures, hevaluate, hrun⟩

end Machine

end RuleLang
