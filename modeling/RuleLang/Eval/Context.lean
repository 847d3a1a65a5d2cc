import RuleLang.Json.Reader
import RuleLang.Program.Wire
import RuleLang.Text.Split

/-!
# Contexts

A context gives values to names.  `Context.resolve` finds the value of a dotted path: the
whole path may be a name, or a name may stand before a dot and the rest lead through the
maps of its value.  Of several such names the longest from which the rest leads somewhere
counts.
-/

namespace RuleLang

/-- The values of names. -/
structure Context where
  bindings : List (String × Value) := []

/-- Why a text or a document is no context. -/
inductive ContextError where
  | notJson
  | notObject (found : String)
  | badValue (name : String) (fault : ValueFault)
deriving DecidableEq, Repr

/-- The wording of why a text or a document is no context. -/
def ContextError.message : ContextError → String
  | notJson => "invalid context JSON: not a document"
  | notObject found => "context must be a JSON object, found " ++ found
  | badValue name fault =>
    "invalid context value for '" ++ name ++ "': "
      ++ ({ fault := .value fault : WireError } : WireError).message

/-- How a message names a document. -/
def Json.description : Json → String
  | null => "null"
  | bool _ => "a boolean"
  | int _ | float _ => "a number"
  | str _ => "a string"
  | arr _ => "an array"
  | obj _ => "an object"

/-- The word that a text of digits with an optional sign stands for. -/
def wordOfText? (cs : List Char) : Option Int64 :=
  let (negative, digits) := match cs with
    | '-' :: rest => (true, rest)
    | '+' :: rest => (false, rest)
    | _ => (false, cs)
  if digits.isEmpty ∨ ¬digits.all Char.isDigit then none
  else
    let n : Int := digitsValue digits
    int64? (if negative then -n else n)

namespace Value

/-- The value in a map that a part of a path names: the entry with that string as its key,
or else with the integer it stands for. -/
def step? (part : List Char) : Value → Option Value
  | map entries =>
    match Keyed.find? (.str (String.ofList part)) entries with
    | some v => some v
    | none => (wordOfText? part).bind fun n => Keyed.find? (.int n) entries
  | _ => none

/-- The value to which the parts of a path lead. -/
def walk? : List (List Char) → Value → Option Value
  | [], v => some v
  | part :: parts, v => (v.step? part).bind (walk? parts)

end Value

namespace Context

/-- The value of a name. -/
def find? (c : Context) (name : String) : Option Value := Keyed.find? name c.bindings

/-- The context in which `name` has the value `v`. -/
def insert (c : Context) (name : String) (v : Value) : Context :=
  ⟨Keyed.insert name v c.bindings⟩

/-- The context with several names given values, one after the other. -/
def insertAll (c : Context) (bindings : List (String × Value)) : Context :=
  bindings.foldl (fun c (name, v) => c.insert name v) c

/-- The number of names that have values. -/
def size (c : Context) : Nat := c.bindings.length

/-- The value of a path of which a name is a proper part, the longest such name first. -/
def walkFromName? (c : Context) (path : List Char) : Option Value :=
  (Text.cuts '.' path).reverse.findSome? fun (before, behind) =>
    (c.find? (String.ofList before)).bind (Value.walk? (Text.split '.' behind))

/-- The value of a dotted path, or undefined. -/
def resolve (c : Context) (path : String) : Value :=
  match c.find? path with
  | some v => v
  | none => (c.walkFromName? path.toList).getD .undefined

/-- The context of the entries of an object. -/
def addEntries (c : Context) : List (String × Json) → Except ContextError Context
  | [] => return c
  | (name, j) :: rest =>
    match Value.ofJson j with
    | .ok v => (c.insert name v).addEntries rest
    | .error fault => throw (.badValue name fault)

/-- The context that a document is read as. -/
def ofJson : Json → Except ContextError Context
  | .obj entries => ({} : Context).addEntries entries
  | j => throw (.notObject j.description)

/-- The context that a text is read as. -/
def read (cs : List Char) : Except ContextError Context :=
  match Json.read? cs with
  | some j => ofJson j
  | none => throw .notJson

/-- After a name is given a value it has that value, and the others what they had. -/
@[simp]
theorem find?_insert
    (c : Context) (name other : String) (v : Value) :
  (c.insert name v).find? other = if other = name then some v else c.find? other
  := by
  simp [find?, insert, Keyed.find?_insert]

end Context

end RuleLang
