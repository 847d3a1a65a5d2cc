import RuleLang.Calendar.DateTime
import RuleLang.Duration.Basic
import RuleLang.Keyed

/-!
# Values

The values that expressions have.  `Value.same` is equality of values of one kind, and
`Value.looseEq` equality that takes an integer for the float nearest to it and an
undefined value for different from everything.
-/

namespace RuleLang

/-- A key of a map.  Strings come before integers. -/
inductive MapKey where
  | str (s : String)
  | int (n : Int64)
deriving DecidableEq, Repr

namespace MapKey

/-- Keys of one kind are ordered as strings and integers are. -/
def order : MapKey → MapKey → Ordering
  | .str a, .str b => compare a b
  | .str _, .int _ => .lt
  | .int _, .str _ => .gt
  | .int a, .int b => compare a.toInt b.toInt

instance : Ord MapKey where
  compare := order

instance : Std.TransOrd MapKey where
  eq_swap {a b} := by
    change order a b = (order b a).swap
    cases a <;> cases b
    · exact @Std.OrientedCmp.eq_swap String compare _ _ _
    · rfl
    · rfl
    · exact @Std.OrientedCmp.eq_swap Int compare _ _ _
  isLE_trans {a b c} := by
    change (order a b).isLE → (order b c).isLE → (order a c).isLE
    cases a <;> cases b <;> cases c
    · exact @Std.TransCmp.isLE_trans String compare _ _ _ _
    · exact fun _ _ => rfl
    · exact fun _ h => by cases h
    · exact fun _ _ => rfl
    · exact fun h _ => by cases h
    · exact fun h _ => by cases h
    · exact fun _ h => by cases h
    · exact @Std.TransCmp.isLE_trans Int compare _ _ _ _

instance : Std.LawfulEqOrd MapKey where
  eq_of_compare {a b} h := by
    change order a b = .eq at h
    cases a <;> cases b
    · rw [@Std.LawfulEqCmp.eq_of_compare String compare _ _ _ h]
    · cases h
    · cases h
    · rw [Int64.toInt_inj.mp (@Std.LawfulEqCmp.eq_of_compare Int compare _ _ _ h)]

end MapKey

/-- A value. -/
inductive Value where
  | int (n : Int64)
  | float (x : Float)
  | str (s : String)
  | bool (b : Bool)
  | list (items : List Value)
  | map (entries : List (MapKey × Value))
  | date (d : Date)
  | dateTime (t : DateTime)
  | duration (d : Duration)
  /-- What a variable without a value has. -/
  | undefined

/-- The kind of a value. -/
inductive ValueKind where
  | int
  | float
  | str
  | bool
  | list
  | map
  | date
  | dateTime
  | duration
  | undefined
deriving DecidableEq, Repr

/-- The name of a kind. -/
def ValueKind.name : ValueKind → String
  | int => "integer"
  | float => "float"
  | str => "string"
  | bool => "boolean"
  | list => "list"
  | map => "map"
  | date => "date"
  | dateTime => "datetime"
  | duration => "duration"
  | undefined => "undefined"

namespace Value

/-- The kind of a value. -/
def kind : Value → ValueKind
  | int _ => .int
  | float _ => .float
  | str _ => .str
  | bool _ => .bool
  | list _ => .list
  | map _ => .map
  | date _ => .date
  | dateTime _ => .dateTime
  | duration _ => .duration
  | undefined => .undefined

/-- Whether a value is undefined. -/
def isUndefined : Value → Bool
  | undefined => true
  | _ => false

/-- A number as a float. -/
def asFloat? : Value → Option Float
  | int n => some (Word.toFloat n)
  | float x => some x
  | _ => none

mutual

/-- Equality of values of one kind.  Floats are equal as numbers: the two zeros are, and
what is no number is not equal to itself. -/
def same : Value → Value → Bool
  | int a, int b => a = b
  | float a, float b => a == b
  | str a, str b => a = b
  | bool a, bool b => a = b
  | list a, list b => sameItems a b
  | map a, map b => sameEntries a b
  | date a, date b => a = b
  | dateTime a, dateTime b => a = b
  | duration a, duration b => a = b
  | undefined, undefined => true
  | _, _ => false

/-- Equality of lists, item by item. -/
def sameItems : List Value → List Value → Bool
  | [], [] => true
  | a :: as, b :: bs => same a b && sameItems as bs
  | _, _ => false

/-- Equality of maps, entry by entry. -/
def sameEntries : List (MapKey × Value) → List (MapKey × Value) → Bool
  | [], [] => true
  | (k, a) :: as, (j, b) :: bs => decide (k = j) && same a b && sameEntries as bs
  | _, _ => false

end

mutual

/-- Equality of values that takes integers for floats where the other is one.  Nothing is
equal to an undefined value. -/
def looseEq : Value → Value → Bool
  | undefined, _ | _, undefined => false
  | int a, float b => Word.toFloat a == b
  | float a, int b => Word.toFloat b == a
  | list a, list b => looseEqItems a b
  | map a, map b => looseEqEntries a b
  | a, b => same a b

/-- Loose equality of lists, item by item. -/
def looseEqItems : List Value → List Value → Bool
  | [], [] => true
  | a :: as, b :: bs => looseEq a b && looseEqItems as bs
  | _, _ => false

/-- Loose equality of maps, entry by entry. -/
def looseEqEntries : List (MapKey × Value) → List (MapKey × Value) → Bool
  | [], [] => true
  | (k, a) :: as, (j, b) :: bs => decide (k = j) && looseEq a b && looseEqEntries as bs
  | _, _ => false

end

end Value

end RuleLang
