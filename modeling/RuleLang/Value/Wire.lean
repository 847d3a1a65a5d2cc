import RuleLang.Calendar.Printer
import RuleLang.Calendar.Reader
import RuleLang.Json.Basic
import RuleLang.Value.Text

/-!
# Values as JSON documents

`Value.toJson` writes a value as a document and `Value.ofJson` reads one.  What JSON has
no form for is an object with one entry whose key is a tag: a date, a date-time, or a
duration as its amounts other than zero.  An undefined value is `null`, and so is a
float that is no finite number.
-/

namespace RuleLang

/-- Why a document is no value. -/
inductive ValueFault where
  | dateNotString
  | badDate (text : String) (fault : CalendarFault)
  | dateTimeNotString
  | badDateTime (text : String)
  | durationNotObject
  | unknownUnit (name : String)
  | amountNotInteger (unit : String)
  | durationOverflow
deriving DecidableEq, Repr

/-- The wording of a fault. -/
def ValueFault.message : ValueFault → String
  | dateNotString => "$date payload must be a string"
  | badDate text fault => "invalid $date '" ++ text ++ "': " ++ fault.message
  | dateTimeNotString => "$datetime payload must be a string"
  | badDateTime text => "invalid $datetime '" ++ text ++ "'"
  | durationNotObject => "$duration payload must be an object"
  | unknownUnit name => "unknown duration unit '" ++ name ++ "'"
  | amountNotInteger unit => "duration field '" ++ unit ++ "' must be an integer"
  | durationOverflow => "duration overflow"

/-- The word that a document holds. -/
def Json.asInt64? : Json → Option Int64
  | int n => int64? n
  | _ => none

/-- The amounts of a duration other than zero, by the names of their units. -/
def Duration.toJson (d : Duration) : Json :=
  let units := DurationUnit.all.filter (d.get · ≠ 0)
  .obj (Keyed.ofList (units.map fun u => (u.name, .int (d.get u).toInt)))

/-- The duration with the amounts of an object. -/
def Duration.ofJson : Json → Except ValueFault Duration
  | .obj entries => entries.foldlM addEntry .zero
  | _ => throw .durationNotObject
where
  /-- The duration with one amount more. -/
  addEntry (d : Duration) : String × Json → Except ValueFault Duration
    | (name, j) =>
      match DurationUnit.ofName? name with
      | none => throw (.unknownUnit name)
      | some u =>
        match j.asInt64? with
        | none => throw (.amountNotInteger name)
        | some amount =>
          match d.addPart? amount u with
          | none => throw .durationOverflow
          | some d => return d

namespace Value

/-- The tag of dates. -/
def dateTag : String := "$date"

/-- The tag of date-times. -/
def dateTimeTag : String := "$datetime"

/-- The tag of durations. -/
def durationTag : String := "$duration"

mutual

/-- The document that a value is written as. -/
def toJson : Value → Json
  | int n => .int n.toInt
  | float x => if x.isFinite then .float x else .null
  | str s => .str s
  | bool b => .bool b
  | list items => .arr (itemsToJson items)
  | map entries => .obj (Keyed.ofList (entriesToJson entries))
  | date d => .obj [(dateTag, .str (String.ofList d.text))]
  | dateTime t => .obj [(dateTimeTag, .str (String.ofList t.text))]
  | duration d => .obj [(durationTag, d.toJson)]
  | undefined => .null

/-- The documents of several values. -/
def itemsToJson : List Value → List Json
  | [] => []
  | v :: rest => v.toJson :: itemsToJson rest

/-- The entries of an object, by the texts of their keys. -/
def entriesToJson : List (MapKey × Value) → List (String × Json)
  | [] => []
  | (k, v) :: rest => (k.text, v.toJson) :: entriesToJson rest

end

/-- The value of a tag and its payload, if the tag is one. -/
def ofTag? (tag : String) (payload : Json) : Option (Except ValueFault Value) :=
  if tag = dateTag then
    match payload with
    | .str s =>
      match Date.read s.toList with
      | .ok d => some (.ok (date d))
      | .error fault => some (.error (.badDate s fault))
    | _ => some (.error .dateNotString)
  else if tag = dateTimeTag then
    match payload with
    | .str s =>
      match DateTime.read? s.toList with
      | some t => some (.ok (dateTime t))
      | none => some (.error (.badDateTime s))
    | _ => some (.error .dateTimeNotString)
  else if tag = durationTag then some ((Duration.ofJson payload).map duration)
  else none

/-- The value of the entries of an object, if they are a tag with its payload alone. -/
def ofTagged? : List (String × Json) → Option (Except ValueFault Value)
  | [(tag, payload)] => ofTag? tag payload
  | _ => none

mutual

/-- The value that a document is read as.  An object with one entry is tried as a tagged
one first. -/
def ofJson : Json → Except ValueFault Value
  | .null => return undefined
  | .bool b => return bool b
  | .int n =>
    match int64? n with
    | some w => return int w
    | none => return float (Float.ofInt n)
  | .float x => return float x
  | .str s => return str s
  | .arr items => do
    let vs ← itemsOfJson items
    return list vs
  | .obj entries =>
    match ofTagged? entries with
    | some result => result
    | none => do
      let vs ← entriesOfJson entries
      return map (Keyed.ofList vs)

/-- The values of several documents. -/
def itemsOfJson : List Json → Except ValueFault (List Value)
  | [] => return []
  | j :: rest => do
    let v ← ofJson j
    let vs ← itemsOfJson rest
    return v :: vs

/-- The entries of a map, in the order of an object. -/
def entriesOfJson : List (String × Json) → Except ValueFault (List (MapKey × Value))
  | [] => return []
  | (k, j) :: rest => do
    let v ← ofJson j
    let vs ← entriesOfJson rest
    return (.str k, v) :: vs

end

end Value

end RuleLang
