import RuleLang.Eval.Function
import RuleLang.Number.Notation
import RuleLang.Text.Blank
import RuleLang.Text.Case

/-!
# Built-in functions

The functions that every table can be given.  All but those without arguments give an
undefined value back when an argument is undefined.
-/

namespace RuleLang

/-- What an argument must be. -/
inductive Wanted where
  | measurable
  | number
  | numbers
  | string
  | strings
deriving DecidableEq, Repr

/-- The name of what an argument must be. -/
def Wanted.name : Wanted → String
  | measurable => "a string, list, or map"
  | number => "a number"
  | numbers => "numbers"
  | string => "a string"
  | strings => "strings"

/-- Why a built-in function fails. -/
inductive BuiltinFault where
  | wrongKind (function : String) (wanted : Wanted) (found : ValueKind)
  | lengthRange
  | absOverflow
  | powerOverflow
  | exponentRange
  | integerRange (function : String) (result : Float)
  | negativeRoot (of : Value)

/-- The wording of why a built-in function fails. -/
def BuiltinFault.message : BuiltinFault → String
  | wrongKind function wanted found =>
    function ++ " expects " ++ wanted.name ++ ", got " ++ found.name
  | lengthRange => "length out of range"
  | absOverflow => "integer overflow in abs"
  | powerOverflow => "integer overflow in Math.pow"
  | exponentRange => "exponent too large"
  | integerRange function result =>
    function ++ " result " ++ FloatNotation.plain.write result ++ " is out of integer range"
  | negativeRoot v => "square root of negative number " ++ v.text

namespace Builtin

/-- The result of a built-in function. -/
abbrev Result := Except BuiltinFault Value

/-- The word of a length. -/
def ofLength (n : Nat) : Result :=
  match int64? n with
  | some w => return .int w
  | none => throw .lengthRange

/-- The number of characters, items or entries. -/
def len : Value → Result
  | .str s => ofLength s.length
  | .list items => ofLength items.length
  | .map entries => ofLength entries.length
  | .undefined => return .undefined
  | v => throw (.wrongKind "len" .measurable v.kind)

/-- The magnitude of a number. -/
def abs : Value → Result
  | .int n =>
    match int64? n.toInt.natAbs with
    | some w => return .int w
    | none => throw .absOverflow
  | .float x => return .float x.abs
  | .undefined => return .undefined
  | v => throw (.wrongKind "abs" .number v.kind)

/-- The first of two numbers if `first` says so of them as floats, or else the second. -/
def pick (function : String) (first : Float → Float → Bool) : Value → Value → Result
  | .undefined, _ | _, .undefined => return .undefined
  | a, b =>
    match a.asFloat?, b.asFloat? with
    | some x, some y => return if first x y then a else b
    | none, _ => throw (.wrongKind function .numbers a.kind)
    | _, none => throw (.wrongKind function .numbers b.kind)

/-- The integer that a float is rounded to by `rounding`. -/
def toInteger (function : String) (rounding : Float → Float) : Value → Result
  | .int n => return .int n
  | .float x =>
    let rounded := rounding x
    match (Binary.ofFloat rounded).truncate?.bind int64? with
    | some w => return .int w
    | none => throw (.integerRange function rounded)
  | .undefined => return .undefined
  | v => throw (.wrongKind function .number v.kind)

/-- A string changed by `change`. -/
def mapText (function : String) (change : List Char → List Char) : Value → Result
  | .str s => return .str (String.ofList (change s.toList))
  | .undefined => return .undefined
  | v => throw (.wrongKind function .string v.kind)

/-- Whether `test` holds of two strings. -/
def testText (function : String) (test : List Char → List Char → Bool) :
    Value → Value → Result
  | .str s, .str t => return .bool (test s.toList t.toList)
  | .undefined, _ | _, .undefined => return .undefined
  | .str _, v => throw (.wrongKind function .strings v.kind)
  | v, _ => throw (.wrongKind function .strings v.kind)

/-- The power of two numbers.  That of two integers is an integer unless the exponent is
negative; an exponent of more than thirty-two bits is refused. -/
def pow : Value → Value → Result
  | .undefined, _ | _, .undefined => return .undefined
  | a, b =>
    match a, b with
    | .int base, .int exponent =>
      if exponent < 0 then
        return .float (Float.pow (Word.toFloat base) (Word.toFloat exponent))
      else if 4294967296 ≤ exponent.toInt then throw .exponentRange
      else
        match Word.pow? base exponent.toInt.toNat with
        | some w => return .int w
        | none => throw .powerOverflow
    | a, b =>
      match a.asFloat?, b.asFloat? with
      | some x, some y => return .float (Float.pow x y)
      | none, _ => throw (.wrongKind "Math.pow" .numbers a.kind)
      | _, none => throw (.wrongKind "Math.pow" .numbers b.kind)

/-- The square root of a number. -/
def sqrt : Value → Result
  | .undefined => return .undefined
  | v =>
    match v.asFloat? with
    | none => throw (.wrongKind "Math.sqrt" .number v.kind)
    | some x => if x < 0.0 then throw (.negativeRoot v) else return .float x.sqrt

/-- A function of no argument but the clock. -/
def nullary (f : DateTime → Value) : Function where
  arity := 0
  result _ _ clock := return f clock

/-- A function of one argument. -/
def unary (f : Value → Result) : Function where
  arity := 1
  result args _ _ :=
    (f (args.headD .undefined)).mapError fun fault => .failed fault.message

/-- A function of two arguments. -/
def binary (f : Value → Value → Result) : Function where
  arity := 2
  result args _ _ :=
    (f (args.headD .undefined) (args.tail.headD .undefined)).mapError fun fault =>
      .failed fault.message

/-- The built-in functions with their names. -/
def all : List (String × Function) :=
  [("len", unary len),
    ("abs", unary abs),
    ("min", binary (pick "min" (· ≤ ·))),
    ("max", binary (pick "max" (· ≥ ·))),
    ("round", unary (toInteger "round" Float.round)),
    ("floor", unary (toInteger "floor" Float.floor)),
    ("ceil", unary (toInteger "ceil" Float.ceil)),
    ("lower", unary (mapText "lower" Text.lower)),
    ("upper", unary (mapText "upper" Text.upper)),
    ("trim", unary (mapText "trim" Text.trim)),
    ("starts_with", binary (testText "starts_with" fun s t => t.isPrefixOf s)),
    ("ends_with", binary (testText "ends_with" fun s t => t.isSuffixOf s)),
    ("now", nullary Value.dateTime),
    ("today", nullary fun clock => .date clock.date),
    ("Math.pow", binary pow),
    ("Math.sqrt", unary sqrt)]

end Builtin

/-- A step in building a table of functions. -/
inductive Registration where
  /-- A name is given a function, whatever it had. -/
  | function (name : String) (f : Function)
  /-- Every built-in function is given to its name unless that has one. -/
  | builtins

namespace FunctionTable

/-- The table with the built-in functions for those of their names that are free. -/
def addBuiltins (t : FunctionTable) : FunctionTable :=
  Builtin.all.foldl (fun t (name, f) => t.insertNew name f) t

/-- The table after a registration. -/
def register (t : FunctionTable) : Registration → FunctionTable
  | .function name f => t.insert name f
  | .builtins => t.addBuiltins

/-- The table that registrations build up, one after the other. -/
def build (steps : List Registration) : FunctionTable :=
  steps.foldl register {}

/-- The table of the built-in functions. -/
def builtins : FunctionTable := build [.builtins]

/-- A function of a table with the built-in ones added was there before or is built in. -/
theorem mem_of_find?_addBuiltins
    {t : FunctionTable} {name : String} {f : Function} (h : t.addBuiltins.find? name = some f) :
  t.find? name = some f ∨ (name, f) ∈ Builtin.all
  := by
  unfold addBuiltins at h
  generalize Builtin.all = entries at h ⊢
  induction entries generalizing t with
  | nil => exact .inl h
  | cons entry entries ih =>
    obtain hfirst | hrest := ih h
    · rw [find?_insertNew, Option.or_eq_some_iff] at hfirst
      obtain hold | ⟨-, hnew⟩ := hfirst
      · exact .inl hold
      · split at hnew
        · rename_i hname
          obtain rfl := Option.some.inj hnew
          exact .inr (hname ▸ List.mem_cons_self)
        · cases hnew
    · exact .inr (List.mem_cons_of_mem entry hrest)

/-- A function of the table of the built-in functions is built in. -/
theorem mem_of_find?_builtins
    {name : String} {f : Function} (h : builtins.find? name = some f) :
  (name, f) ∈ Builtin.all
  := by
  simp only [builtins, build, List.foldl_cons, List.foldl_nil, register] at h
  obtain hold | hnew := mem_of_find?_addBuiltins h
  · cases hold
  · apply hnew

end FunctionTable

end RuleLang
