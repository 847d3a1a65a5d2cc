import RuleLang.Calendar.DateTime
import RuleLang.Duration.Basic

/-!
# Moving date-times by durations

`Duration.addTo?` moves a date-time first by the years and months of a duration, a day
past the end of its month becoming the last one, and then by the length of all other
amounts.  `Duration.between` measures the way from one date-time to another in days and
smaller units.
-/

namespace RuleLang.Duration

/-- The date-time that lies a duration after `t`. -/
def addTo? (d : Duration) (t : DateTime) : Option DateTime := do
  let months ← d.wholeMonths?
  let shifted ← t.addMonths? months.toInt
  let millis ← d.fixedMillis?
  if millis = Int64.minValue then none else shifted.addMillis? millis.toInt

/-- The date-time that lies a duration before `t`. -/
def subtractFrom? (d : Duration) (t : DateTime) : Option DateTime := do
  (← d.neg?).addTo? t

/-- The duration of `millis` milliseconds, in days and smaller units. -/
def ofMillis (millis : Int) : Duration where
  days := Int64.ofInt (millis.tdiv 86400000)
  hours := Int64.ofInt ((millis.tmod 86400000).tdiv 3600000)
  minutes := Int64.ofInt ((millis.tmod 3600000).tdiv 60000)
  seconds := Int64.ofInt ((millis.tmod 60000).tdiv 1000)
  milliseconds := Int64.ofInt (millis.tmod 1000)

/-- The way from one date-time to another. -/
def between (earlier later : DateTime) : Duration :=
  ofMillis (later.millisSince earlier)

/-- The way from one day to another. -/
def betweenDates (earlier later : Date) : Duration where
  days := Int64.ofInt (later.number - earlier.number)

end RuleLang.Duration
