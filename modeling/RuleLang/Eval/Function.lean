import RuleLang.Eval.Context
import RuleLang.Eval.Error

/-!
# Functions

A function has a fixed number of arguments, and may look at the context and at the clock.
A `FunctionTable` gives functions to names; it is built up by registrations, of which the
built-in functions never displace another.
-/

namespace RuleLang

/-- How a function fails: it gives an error back, or breaks down. -/
inductive FunctionFault where
  | failed (message : String)
  | panicked (message : String)
deriving DecidableEq, Repr

/-- A function: its number of arguments, and its result for arguments, a context and the
time of a clock. -/
structure Function where
  arity : Nat
  result : List Value → Context → DateTime → Except FunctionFault Value

/-- The functions of names. -/
structure FunctionTable where
  entries : List (String × Function) := []

namespace FunctionTable

/-- The function of a name. -/
def find? (t : FunctionTable) (name : String) : Option Function := Keyed.find? name t.entries

/-- The table in which `name` has the function `f`. -/
def insert (t : FunctionTable) (name : String) (f : Function) : FunctionTable :=
  ⟨Keyed.insert name f t.entries⟩

/-- The table in which `name` has the function `f` unless it had one already. -/
def insertNew (t : FunctionTable) (name : String) (f : Function) : FunctionTable :=
  if (t.find? name).isSome then t else t.insert name f

/-- The names that have functions, in increasing order. -/
def names (t : FunctionTable) : List String := t.entries.map (·.1)

/-- The result of the function of a name. -/
def call (t : FunctionTable) (name : String) (args : List Value) (context : Context)
    (clock : DateTime) : Except EvalError Value :=
  match t.find? name with
  | none => throw (.unknownFunction name)
  | some f =>
    if args.length ≠ f.arity then throw (.arity name f.arity args.length)
    else
      match f.result args context clock with
      | .ok v => return v
      | .error (.failed message) => throw (.functionFailed name message)
      | .error (.panicked message) => throw (.functionPanicked name message)

/-- After a name is given a function it has that function, and the others what they
had. -/
@[simp]
theorem find?_insert
    (t : FunctionTable) (name other : String) (f : Function) :
  (t.insert name f).find? other = if other = name then some f else t.find? other
  := by
  simp [find?, insert, Keyed.find?_insert]

/-- A function registered only for a free name leaves every function there was. -/
@[simp]
theorem find?_insertNew
    (t : FunctionTable) (name other : String) (f : Function) :
  (t.insertNew name f).find? other
    = (t.find? other).or (if other = name then some f else none)
  := by
  unfold insertNew
  split
  · rename_i h
    split
    · rename_i hn
      subst hn
      simp [Option.or_of_isSome h]
    · simp
  · rename_i h
    rw [find?_insert]
    split
    · rename_i hn
      subst hn
      simp_all
    · simp

end FunctionTable

end RuleLang
