import Mathlib.Data.List.Basic
import RuleLang.Proofs.Eval.Compilation

/-!
# Heights of stacks

An instruction that is carried out takes its operands from the stack and leaves one value
there.  How high the stack is after a program can therefore be read off the program, which is
`Program.height`, and so can whether the next instruction finds its operands: neither the
values nor the environment matter.  An instruction that fails leaves what `Instruction.spare`
tells.
-/

namespace RuleLang

namespace Instruction

/-! ### Operands -/

/-- A stack that is too low has no operands to take. -/
theorem takeTop_of_lt {n : Nat} {stack : List Value} (taken : List Value)
    (h : stack.length < n) :
  takeTop n stack taken = none
  := by
  induction stack generalizing n taken with
  | nil =>
    cases n with
    | zero => cases h
    | succ n => rfl
  | cons v stack ih =>
    cases n with
    | zero => cases h
    | succ n => exact ih (v :: taken) (Nat.lt_of_succ_lt_succ h)

/-- The operands on a stack that is high enough are its top. -/
theorem takeTop_of_le {n : Nat} {stack : List Value} (h : n ≤ stack.length) :
  takeTop n stack [] = some ((stack.take n).reverse, stack.drop n)
  := by
  have htop := takeTop_append (stack.take n) (stack.drop n) []
  rw [List.take_append_drop, List.length_take_of_le h, List.append_nil] at htop
  apply htop

/-! ### One instruction -/

variable {env : Environment} {i : Instruction} {stack : List Value}

theorem execute_of_isTooLarge (h : i.isTooLarge = true) :
  i.execute env stack = (stack, some (.invalidInstruction .objectSize))
  := if_pos h

theorem execute_of_lt (hi : i.isTooLarge = false) (h : stack.length < i.arity) :
  i.execute env stack = (stack, some (.stackUnderflow i.opcode i.arity stack.length))
  := by
  unfold execute
  rw [hi, takeTop_of_lt [] h]
  rfl

theorem execute_of_le (hi : i.isTooLarge = false) (h : i.arity ≤ stack.length) :
  i.execute env stack =
    match i.result env (stack.take i.arity).reverse with
    | .ok v => (v :: stack.drop i.arity, none)
    | .error e => (stack.drop i.arity, some e)
  := by
  unfold execute
  rw [hi, takeTop_of_le h]
  rfl

/-- What a stack has left when an instruction fails on it, by its height.  An instruction that
finds its operands has taken them. -/
def spare (i : Instruction) (height : Int) : Int :=
  if i.isTooLarge ∨ height < i.arity then height else height - i.arity

/-- The height of the stack after an instruction that is carried out, and after one that
fails. -/
theorem length_execute
    (env : Environment) (i : Instruction) (stack : List Value) :
  ((i.execute env stack).1.length : Int) =
    if (i.execute env stack).2 = none then (stack.length : Int) + (1 - i.arity)
    else i.spare stack.length
  := by
  unfold spare
  cases hi : i.isTooLarge with
  | true =>
    rw [execute_of_isTooLarge hi]
    rfl
  | false =>
    obtain hlt | hle := Nat.lt_or_ge stack.length i.arity
    · rw [execute_of_lt hi hlt, if_neg nofun, if_pos (.inr (Int.ofNat_lt.mpr hlt))]
    · rw [execute_of_le hi hle]
      cases i.result env (stack.take i.arity).reverse with
      | ok v =>
        simp only [List.length_cons, List.length_drop]
        rw [if_pos trivial]
        omega
      | error e =>
        simp only [List.length_drop]
        rw [if_neg nofun, if_neg (by simp; omega)]
        omega

end Instruction

namespace Program

/-! ### Programs -/

/-- By how much a program makes the stack higher: each of its instructions leaves one value for
its operands. -/
def height : Program → Int
  | [] => 0
  | i :: p => 1 - i.arity + height p

/-- The stack after a program is as much higher as the program makes it. -/
theorem length_of_exec {env : Environment} {p : Program} {stack stack' : List Value}
    (h : exec env p stack = .ok stack') :
  (stack'.length : Int) = stack.length + height p
  := by
  induction p generalizing stack with
  | nil =>
    obtain rfl := Except.ok.inj h
    exact (Int.add_zero _).symm
  | cons i p ih =>
    have hlength := i.length_execute env stack
    unfold exec at h
    split at h
    · rename_i next hnext
      rw [hnext, if_pos rfl] at hlength
      rw [ih h, hlength, height, Int.add_assoc]
    · cases h

/-- A stack leaves a value exactly when it is one value high. -/
theorem exists_result_iff {stack : List Value} :
  (∃ v, result stack = .ok v) ↔ stack.length = 1
  := by
  match stack with
  | [] => exact ⟨nofun, nofun⟩
  | [v] => exact ⟨fun _ => rfl, fun _ => ⟨v, rfl⟩⟩
  | _ :: _ :: _ => exact ⟨nofun, nofun⟩

end Program

end RuleLang
