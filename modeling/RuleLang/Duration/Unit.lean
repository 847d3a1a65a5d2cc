/-!
# Units of durations

The eight units, from years down to milliseconds, their names, and the two directions
in which a duration can be counted from the present.
-/

namespace RuleLang

/-- A unit in which durations are given. -/
inductive DurationUnit where
  | years
  | months
  | weeks
  | days
  | hours
  | minutes
  | seconds
  | milliseconds
deriving DecidableEq, Repr

namespace DurationUnit

/-- The units, the longest first. -/
def all : List DurationUnit :=
  [years, months, weeks, days, hours, minutes, seconds, milliseconds]

theorem mem_all
    (u : DurationUnit) :
  u ∈ all
  := by
  cases u <;> decide

/-- The name of one of a unit. -/
def singular : DurationUnit → String
  | years => "year"
  | months => "month"
  | weeks => "week"
  | days => "day"
  | hours => "hour"
  | minutes => "minute"
  | seconds => "second"
  | milliseconds => "millisecond"

/-- The name of a unit, which is that of several. -/
def name : DurationUnit → String
  | years => "years"
  | months => "months"
  | weeks => "weeks"
  | days => "days"
  | hours => "hours"
  | minutes => "minutes"
  | seconds => "seconds"
  | milliseconds => "milliseconds"

/-- The unit with the given name. -/
def ofName? (s : String) : Option DurationUnit :=
  all.find? (·.name = s)

@[simp]
theorem ofName?_name
    (u : DurationUnit) :
  ofName? u.name = some u
  := by
  cases u <;> decide

/-- The word for `amount` of a unit: its singular for 1 and -1.  The magnitude is that
of words, so the least word stays negative. -/
def wordFor (u : DurationUnit) (amount : Int64) : String :=
  if amount.abs = 1 then u.singular else u.name

/-- The unit that a word of an expression names: in the singular or the plural, in any
letter case. -/
def ofWord? (word : String) : Option DurationUnit :=
  let lower := word.toList.map Char.toLower
  let stem := if lower.getLast? = some 's' then lower.dropLast else lower
  all.find? (·.singular.toList = stem)

end DurationUnit

/-- Whether a duration is counted back from the present or forward. -/
inductive Direction where
  | ago
  | fromNow
deriving DecidableEq, Repr

namespace Direction

/-- The name of a direction in programs. -/
def name : Direction → String
  | ago => "ago"
  | fromNow => "from_now"

/-- The direction with the given name. -/
def ofName? (s : String) : Option Direction :=
  [ago, fromNow].find? (·.name = s)

@[simp]
theorem ofName?_name
    (d : Direction) :
  ofName? d.name = some d
  := by
  cases d <;> decide

/-- How a direction is written in an expression. -/
def words : Direction → String
  | ago => "ago"
  | fromNow => "from now"

end Direction

end RuleLang
