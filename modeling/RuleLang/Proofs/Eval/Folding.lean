import RuleLang.Program.Lowering
import RuleLang.Proofs.Eval.Execution
import RuleLang.Proofs.Eval.Flattening
import RuleLang.Proofs.Token.Lexing

/-!
# Folded paths

The program of a chain of properties that begins with a variable is a single instruction, which
loads the dotted path of the chain.  In a context whose names have no dots it leaves what is left
when the variable is loaded and its properties are asked for one after the other, if no name of
the chain has a dot and none behind the first is an integer.
-/

namespace RuleLang

/-! ### Chains of properties -/

namespace Expr

/-- The property of a property, and so on, of a variable. -/
def chain (root : String) (names : List String) : Expr := names.foldl property (var root)

theorem path?_foldl_property {base : Expr} {path : String} (h : base.path? = some path)
    (names : List String) :
  (names.foldl property base).path? = some (dotted (path :: names))
  := by
  induction names generalizing base path with
  | nil => exact h
  | cons name names ih =>
    apply ih
    rw [path?, h]
    rfl

/-- The program of an expression with a dotted path loads the path. -/
theorem lower_of_path? {e : Expr} {path : String} (h : e.path? = some path) :
  e.lower = [.load path]
  := by
  cases e with
  | var name =>
    obtain rfl := Option.some.inj h
    rw [lower]
  | property base name =>
    obtain ⟨path', hbase, rfl⟩ := Option.map_eq_some_iff.mp h
    rw [lower, hbase]
  | _ => cases h

theorem lower_chain
    (root : String) (names : List String) :
  (chain root names).lower = [.load (dotted (root :: names))]
  := lower_of_path? (path?_foldl_property rfl names)

end Expr

/-! ### Properties of properties -/

/-- A word stands for no integer. -/
theorem IsWord.wordOfText?_eq_none {cs : List Char} (h : IsWord cs) :
  wordOfText? cs = none
  := by
  obtain ⟨c, rest, rfl, hstart⟩ := h.start
  have hdigit : c.isDigit = false := by
    rw [← Bool.not_eq_true]
    exact fun hdigit => not_isWordStart_of_isDigit hdigit hstart
  -- a sign begins no word
  have hminus : c ≠ '-' := by
    rintro rfl
    cases hstart
  have hplus : c ≠ '+' := by
    rintro rfl
    cases hstart
  simp [wordOfText?, hdigit, hminus, hplus]

namespace Value

/-- The part of a path that stands for no integer leads to the property of that name. -/
theorem getD_step? {name : String} (h : wordOfText? name.toList = none) (v : Value) :
  (v.step? name.toList).getD undefined = v.property name
  := by
  cases v with
  | map entries =>
    rw [step?, property, h, String.ofList_toList]
    cases Keyed.find? (.str name) entries <;> rfl
  | _ => rfl

theorem foldl_property_undefined
    (names : List String) :
  names.foldl (fun v name => v.property name) undefined = undefined
  := by
  induction names with
  | nil => rfl
  | cons name names ih => exact ih

/-- A path whose parts stand for no integers leads to the property of a property, and so on. -/
theorem getD_walk? {names : List String} (h : ∀ name ∈ names, wordOfText? name.toList = none)
    (v : Value) :
  (v.walk? (names.map String.toList)).getD undefined
    = names.foldl (fun v name => v.property name) v
  := by
  induction names generalizing v with
  | nil => rfl
  | cons name names ih =>
    obtain ⟨hname, hnames⟩ := List.forall_mem_cons.mp h
    rw [List.map_cons, walk?, List.foldl_cons, ← getD_step? hname]
    cases v.step? name.toList with
    | none => exact (foldl_property_undefined names).symm
    | some u => exact ih hnames u

end Value

/-- In a context whose names have no dots, the value of a dotted path is the property of a
property, and so on, of the value of its first name. -/
theorem Context.HasPlainNames.resolve_dotted {c : Context} (h : c.HasPlainNames) {root : String}
    {names : List String} (hdots : ∀ name ∈ root :: names, '.' ∉ name.toList)
    (hwords : ∀ name ∈ names, wordOfText? name.toList = none) :
  c.resolve (dotted (root :: names))
    = names.foldl (fun v name => v.property name) (c.resolve root)
  := by
  have hroot := Text.split_eq_singleton_iff.mpr (hdots root List.mem_cons_self)
  rw [h.resolve_eq, h.resolve_eq root, split_dotted (List.cons_ne_nil root names) hdots, hroot,
    List.map_cons, Value.walk?, Value.walk?, step?_map_entries]
  cases c.find? (String.ofList root.toList) with
  | none => exact (Value.foldl_property_undefined names).symm
  | some v => exact Value.getD_walk? hwords v

/-! ### Loading and accessing -/

namespace Program

variable {env : Environment}

/-- Under lenient options a path is loaded whether it has a value or not. -/
theorem exec_load (h : env.options.strict = false) (path : String) (p : Program)
    (stack : List Value) :
  exec env (.load path :: p) stack = exec env p (env.context.resolve path :: stack)
  := by
  have hresult : (Instruction.load path).result env [] = .ok (env.context.resolve path) := by
    rw [Instruction.result, Instruction.loadPath, h]
    rfl
  have hload := Instruction.exec_operands env (.load path) [] stack rfl rfl
  rw [hresult] at hload
  exact (exec_append env [.load path] p stack).trans (congrArg (· >>= exec env p) hload)

theorem exec_accesses
    (env : Environment) (names : List String) (v : Value) (stack : List Value) :
  exec env (names.map .access) (v :: stack)
    = .ok (names.foldl (fun v name => v.property name) v :: stack)
  := by
  induction names generalizing v with
  | nil => rfl
  | cons name names ih => exact ih (v.property name)

end Program

namespace Expr

/-- In a context whose names have no dots the single instruction that is the program of a chain of
properties leaves, under lenient options, the value that is left when the variable is loaded and
its properties are accessed one after the other.  No name of the chain may have a dot, and none
behind the first may stand for an integer, as no identifier does. -/
theorem exec_lower_chain {env : Environment} (hlenient : env.options.strict = false)
    (h : env.context.HasPlainNames) {root : String} {names : List String}
    (hdots : ∀ name ∈ root :: names, '.' ∉ name.toList)
    (hwords : ∀ name ∈ names, wordOfText? name.toList = none) :
  (chain root names).lower = [.load (dotted (root :: names))]
    ∧ (∀ stack, ∃ v,
        Program.exec env [.load (dotted (root :: names))] stack = .ok (v :: stack)
        ∧ Program.exec env (.load root :: names.map .access) stack = .ok (v :: stack))
    ∧ ∀ name : String, IsName name.toList → wordOfText? name.toList = none
  := by
  refine ⟨lower_chain root names, ?_, fun name hname => hname.wordOfText?_eq_none⟩
  intro stack
  use env.context.resolve (dotted (root :: names))
  constructor
  · rw [Program.exec_load hlenient]
    rfl
  · rw [Program.exec_load hlenient, Program.exec_accesses, h.resolve_dotted hdots hwords]

/-- An inner map is reached by its key, and nothing lies behind a string or an item of a list. -/
theorem exec_lower_chain_user :
  let user : Value := .map [(.str "name", .map [(.str "first", .str "Ann")]),
    (.str "tags", .list [.map [(.str "first", .int 1)]])]
  let env : Environment :=
    { context := ⟨[("user", user)]⟩, functions := {}, options := {},
      clock := Date.midnight { number := 20200 } }
  env.options.strict = false ∧ env.context.HasPlainNames
    ∧ (chain "user" ["name", "first"]).lower = [.load "user.name.first"]
    ∧ Program.exec env [.load "user", .access "name", .access "first"] [.int 7]
      = .ok [.str "Ann", .int 7]
    ∧ Program.exec env [.load "user", .access "tags", .access "first"] []
      = .ok [.undefined]
  := by
  intro user env
  have hlenient : env.options.strict = false := rfl
  have h : env.context.HasPlainNames := by
    intro b hb
    obtain rfl := List.mem_singleton.mp hb
    decide
  obtain ⟨hlower, hname, -⟩ :=
    @exec_lower_chain env hlenient h "user" ["name", "first"] (by decide) (by decide)
  obtain ⟨-, htags, -⟩ :=
    @exec_lower_chain env hlenient h "user" ["tags", "first"] (by decide) (by decide)
  obtain ⟨v, hloadName, haccessName⟩ := hname [.int 7]
  obtain ⟨w, hloadTags, haccessTags⟩ := htags []
  exact ⟨hlenient, h, hlower, haccessName.trans hloadName.symm, haccessTags.trans hloadTags.symm⟩

end Expr

end RuleLang
