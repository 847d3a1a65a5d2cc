import RuleLang.Calendar.Date

/-!
# Date-times

A `DateTime` is a day and a time of that day without a time zone.  A time counts the
seconds of the day and the nanoseconds of the second; a leap second is the second
before it with a thousand million nanoseconds or more.  `DateTime.addMillis?` and
`DateTime.nanosSince` move along the line of time and measure it.
-/

namespace RuleLang

/-- A time of the day.  Only the last second of a minute can hold a leap second. -/
structure TimeOfDay where
  second : Nat
  nano : Nat
  second_lt : second < 86400 := by omega
  nano_lt : nano < 2000000000 := by omega
  leap : 1000000000 ≤ nano → second % 60 = 59 := by omega
deriving DecidableEq, Repr

namespace TimeOfDay

/-- The first instant of a day. -/
def midnight : TimeOfDay where
  second := 0
  nano := 0

/-- The given time, if there is one. -/
def of? (second nano : Nat) : Option TimeOfDay :=
  if h : second < 86400 ∧ nano < 2000000000 ∧ (1000000000 ≤ nano → second % 60 = 59) then
    some ⟨second, nano, h.1, h.2.1, h.2.2⟩
  else none

/-- Every time is found by its second and nanosecond. -/
@[simp]
theorem of?_self
    (t : TimeOfDay) :
  of? t.second t.nano = some t
  := dif_pos ⟨t.second_lt, t.nano_lt, t.leap⟩

/-- Whether a time lies in a leap second. -/
def isLeap (t : TimeOfDay) : Bool := 1000000000 ≤ t.nano

end TimeOfDay

/-- A day and a time of that day. -/
structure DateTime where
  date : Date
  time : TimeOfDay
deriving DecidableEq, Repr

namespace DateTime

/-- Date-times are ordered by day, second and nanosecond. -/
instance : Ord DateTime where
  compare a b :=
    ((compare a.date b.date).then (compare a.time.second b.time.second)).then
      (compare a.time.nano b.time.nano)

/-- The seconds from midnight of 1970-01-01, negative before it. -/
def seconds (t : DateTime) : Int :=
  86400 * t.date.number + t.time.second

/-- The date-time with the given seconds from midnight of 1970-01-01 and the given
nanoseconds, if it is in range. -/
def ofSeconds? (seconds : Int) (nano : Nat) : Option DateTime := do
  let date ← Date.ofNumber? (seconds / 86400)
  let time ← TimeOfDay.of? (seconds % 86400).toNat nano
  return ⟨date, time⟩

/-- Every date-time is found by its seconds and nanoseconds. -/
@[simp]
theorem ofSeconds?_seconds
    (t : DateTime) :
  ofSeconds? t.seconds t.time.nano = some t
  := by
  have h := t.time.second_lt
  have hday : t.seconds / 86400 = t.date.number := by
    unfold seconds
    omega
  have hsecond : (t.seconds % 86400).toNat = t.time.second := by
    unfold seconds
    omega
  simp [ofSeconds?, hday, hsecond]

/-- The date-time `seconds` seconds and `nanos` nanoseconds later, the two of one
sign.  A time in a leap second that is left forwards counts as the second before it,
and one that is left backwards as the second after it; a step that stays inside moves
the nanoseconds only. -/
def addSpan? (t : DateTime) (seconds nanos : Int) : Option DateTime :=
  let nano : Int := t.time.nano
  if t.time.isLeap then
    if 0 < seconds ∨ (0 < nanos ∧ 2000000000 ≤ nano + nanos) then
      settle? (t.seconds + seconds) (nano - 1000000000 + nanos)
    else if seconds < 0 then
      settle? (t.seconds + 1 + seconds) (nano - 1000000000 + nanos)
    else ofSeconds? t.seconds (nano + nanos).toNat
  else settle? (t.seconds + seconds) (nano + nanos)
where
  /-- Carries nanoseconds outside a second into the seconds. -/
  settle? (seconds nanos : Int) : Option DateTime :=
    ofSeconds? (seconds + nanos / 1000000000) (nanos % 1000000000).toNat

/-- The date-time `millis` milliseconds later. -/
def addMillis? (t : DateTime) (millis : Int) : Option DateTime :=
  t.addSpan? (millis.tdiv 1000) (millis.tmod 1000 * 1000000)

/-- The date-time whose day is `months` months later. -/
def addMonths? (t : DateTime) (months : Int) : Option DateTime :=
  (t.date.addMonths? months).map fun date => { t with date }

/-- The nanoseconds from `earlier` to `t`.  A leap second that lies before the later
time of day counts as a second. -/
def nanosSince (t earlier : DateTime) : Int :=
  let leap : Int :=
    if earlier.time.second < t.time.second ∧ earlier.time.isLeap then 1
    else if t.time.second < earlier.time.second ∧ t.time.isLeap then -1
    else 0
  (t.seconds - earlier.seconds + leap) * 1000000000 + (t.time.nano - earlier.time.nano)

/-- The whole milliseconds from `earlier` to `t`. -/
def millisSince (t earlier : DateTime) : Int :=
  (t.nanosSince earlier).tdiv 1000000

end DateTime

/-- The first instant of a day. -/
def Date.midnight (d : Date) : DateTime := ⟨d, .midnight⟩

end RuleLang
