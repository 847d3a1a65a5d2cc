import RuleLang.Duration.Unit
import RuleLang.Number.Word

/-!
# Durations

A duration holds an amount for every unit, and keeps them apart: a month is no number
of days.  Its arithmetic is that of the amounts, each checked.  For comparison alone a
year counts 365 days and a month 30.
-/

namespace RuleLang

/-- An amount of every unit. -/
structure Duration where
  years : Int64 := 0
  months : Int64 := 0
  weeks : Int64 := 0
  days : Int64 := 0
  hours : Int64 := 0
  minutes : Int64 := 0
  seconds : Int64 := 0
  milliseconds : Int64 := 0
deriving DecidableEq, Repr

namespace Duration

/-- The duration of no length. -/
def zero : Duration := {}

/-- The amount of a unit. -/
def get (d : Duration) : DurationUnit → Int64
  | .years => d.years
  | .months => d.months
  | .weeks => d.weeks
  | .days => d.days
  | .hours => d.hours
  | .minutes => d.minutes
  | .seconds => d.seconds
  | .milliseconds => d.milliseconds

/-- The duration with another amount of one unit. -/
def set (d : Duration) (u : DurationUnit) (amount : Int64) : Duration :=
  match u with
  | .years => { d with years := amount }
  | .months => { d with months := amount }
  | .weeks => { d with weeks := amount }
  | .days => { d with days := amount }
  | .hours => { d with hours := amount }
  | .minutes => { d with minutes := amount }
  | .seconds => { d with seconds := amount }
  | .milliseconds => { d with milliseconds := amount }

@[simp]
theorem get_zero
    (u : DurationUnit) :
  zero.get u = 0
  := by
  cases u <;> rfl

/-- Setting an amount changes that amount and no other. -/
@[simp]
theorem get_set
    (d : Duration) (u v : DurationUnit) (amount : Int64) :
  (d.set u amount).get v = if v = u then amount else d.get v
  := by
  cases u <;> cases v <;> rfl

/-- Durations with the same amounts are equal. -/
theorem ext_get
    {d e : Duration} (h : ∀ u, d.get u = e.get u) :
  d = e
  := by
  cases d
  cases e
  simp only [mk.injEq]
  exact ⟨h .years, h .months, h .weeks, h .days, h .hours, h .minutes, h .seconds,
    h .milliseconds⟩

/-- The duration whose amounts are `f`, if all of them are there. -/
def ofUnits? (f : DurationUnit → Option Int64) : Option Duration := do
  return {
    years := ← f .years
    months := ← f .months
    weeks := ← f .weeks
    days := ← f .days
    hours := ← f .hours
    minutes := ← f .minutes
    seconds := ← f .seconds
    milliseconds := ← f .milliseconds }

/-- The duration with `amount` more of one unit. -/
def addPart? (d : Duration) (amount : Int64) (u : DurationUnit) : Option Duration :=
  (Word.add? (d.get u) amount).map (d.set u)

/-- The sum of the parts, taken one after the other. -/
def ofParts? (parts : List (Int64 × DurationUnit)) : Option Duration :=
  parts.foldlM (fun d (amount, u) => d.addPart? amount u) zero

/-- The sum of two durations. -/
def add? (d e : Duration) : Option Duration :=
  ofUnits? fun u => Word.add? (d.get u) (e.get u)

/-- The difference of two durations. -/
def sub? (d e : Duration) : Option Duration :=
  ofUnits? fun u => Word.sub? (d.get u) (e.get u)

/-- A multiple of a duration. -/
def mul? (d : Duration) (factor : Int64) : Option Duration :=
  ofUnits? fun u => Word.mul? (d.get u) factor

/-- The opposite of a duration. -/
def neg? (d : Duration) : Option Duration := d.mul? (-1)

/-- Whether a duration has no hours, minutes, seconds and milliseconds, so that it moves
a day to a day. -/
def isDateOnly (d : Duration) : Bool :=
  d.hours = 0 ∧ d.minutes = 0 ∧ d.seconds = 0 ∧ d.milliseconds = 0

/-- The milliseconds of the amounts below months, each product and each sum held within
the range of words. -/
def fixedMillisClamped (d : Duration) : Int64 :=
  let sum := Word.mulClamped d.weeks 604800000
  let sum := Word.addClamped sum (Word.mulClamped d.days 86400000)
  let sum := Word.addClamped sum (Word.mulClamped d.hours 3600000)
  let sum := Word.addClamped sum (Word.mulClamped d.minutes 60000)
  let sum := Word.addClamped sum (Word.mulClamped d.seconds 1000)
  Word.addClamped sum d.milliseconds

/-- The length by which durations are compared, a year counting 365 days and a month
30. -/
def approxMillis (d : Duration) : Int :=
  d.fixedMillisClamped.toInt + (d.years.toInt * 365 + d.months.toInt * 30) * 86400000

/-- The milliseconds of the amounts below months, if every product and every sum on the
way is a word. -/
def fixedMillis? (d : Duration) : Option Int64 := do
  let sum ← Word.mul? d.weeks 604800000
  let sum ← Word.add? sum (← Word.mul? d.days 86400000)
  let sum ← Word.add? sum (← Word.mul? d.hours 3600000)
  let sum ← Word.add? sum (← Word.mul? d.minutes 60000)
  let sum ← Word.add? sum (← Word.mul? d.seconds 1000)
  Word.add? sum d.milliseconds

/-- The number of months of the years and months. -/
def wholeMonths? (d : Duration) : Option Int64 := do
  Word.add? (← Word.mul? d.years 12) d.months

/-- The text of a duration: its amounts other than zero with their units. -/
def text (d : Duration) : String :=
  if d = zero then "0 seconds"
  else
    let part (u : DurationUnit) : String := Word.text (d.get u) ++ " " ++ u.wordFor (d.get u)
    String.intercalate " " ((DurationUnit.all.filter (d.get · ≠ 0)).map part)

end Duration

end RuleLang
