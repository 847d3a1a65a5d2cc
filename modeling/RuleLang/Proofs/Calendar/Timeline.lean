import Mathlib.Algebra.Order.Ring.Int
import RuleLang.Calendar.DateTime

/-!
# The line of time

A date-time outside leap seconds is a point of a line, given by its nanoseconds from midnight of
1970-01-01.  To go on by milliseconds is to add them, the way from one date-time to another is the
difference of their points, and date-times have the order of their points.
-/

namespace RuleLang

/-- The nanoseconds of a day. -/
def dayNanos : Int := 86400000000000

namespace DateTime

/-- The nanoseconds from midnight of 1970-01-01.  Those of a leap second are those of the second
behind it too. -/
def nanos (t : DateTime) : Int := t.seconds * 1000000000 + t.time.nano

/-- The date-time with the given nanoseconds from midnight of 1970-01-01, if it is in range. -/
def ofNanos? (n : Int) : Option DateTime :=
  ofSeconds? (n / 1000000000) (n % 1000000000).toNat

variable {t u : DateTime}

theorem nano_lt (h : t.time.isLeap = false) :
  t.time.nano < 1000000000
  := Nat.lt_of_not_le (of_decide_eq_false h)

theorem ofNanos?_nanos (h : t.time.isLeap = false) :
  ofNanos? t.nanos = some t
  := by
  have hlt := nano_lt h
  have hseconds : t.nanos / 1000000000 = t.seconds := by
    unfold nanos
    omega
  have hnano : (t.nanos % 1000000000).toNat = t.time.nano := by
    unfold nanos
    omega
  rw [ofNanos?, hseconds, hnano, ofSeconds?_seconds]

/-- What is found by nanoseconds has them, and lies in no leap second. -/
theorem of_ofNanos?_eq_some {n : Int} (h : ofNanos? n = some t) :
  t.time.isLeap = false ∧ t.nanos = n
  := by
  obtain ⟨date, hdate, hrest⟩ := Option.bind_eq_some_iff.mp h
  obtain ⟨time, htime, ht⟩ := Option.bind_eq_some_iff.mp hrest
  obtain rfl := Option.some.inj ht
  unfold TimeOfDay.of? at htime
  split at htime
  · obtain rfl := Option.some.inj htime
    have hnumber := Date.number_of_ofNumber?_eq_some hdate
    constructor
    · apply decide_eq_false
      change ¬1000000000 ≤ (n % 1000000000).toNat
      omega
    · simp only [nanos, seconds, hnumber]
      omega
  · cases htime

/-! ### Steps and distances -/

/-- Nanoseconds outside a second are carried into the seconds. -/
theorem settle?_eq
    (seconds nanos : Int) :
  addSpan?.settle? seconds nanos = ofNanos? (seconds * 1000000000 + nanos)
  := by
  have hseconds : seconds + nanos / 1000000000 = (seconds * 1000000000 + nanos) / 1000000000 := by
    omega
  have hnanos : nanos % 1000000000 = (seconds * 1000000000 + nanos) % 1000000000 := by omega
  rw [addSpan?.settle?, ofNanos?, hseconds, hnanos]

/-- To go on by milliseconds is to add them. -/
theorem addMillis?_eq (h : t.time.isLeap = false) (millis : Int) :
  t.addMillis? millis = ofNanos? (t.nanos + millis * 1000000)
  := by
  have hmillis := Int.tmod_add_tdiv_mul millis 1000
  have hsum : (t.seconds + millis.tdiv 1000) * 1000000000
      + (t.time.nano + millis.tmod 1000 * 1000000) = t.nanos + millis * 1000000 := by
    unfold nanos
    omega
  rw [addMillis?, addSpan?, h, ← hsum, ← settle?_eq]
  rfl

/-- The way from one date-time to another is the difference of their points. -/
theorem nanosSince_eq (ht : t.time.isLeap = false) (hu : u.time.isLeap = false) :
  t.nanosSince u = t.nanos - u.nanos
  := by
  simp only [nanosSince, ht, hu, nanos, Bool.false_eq_true, and_false, if_false]
  omega

/-! ### The order -/

/-- Date-times have the order of their points. -/
theorem isLE_compare_iff (ht : t.time.isLeap = false) (hu : u.time.isLeap = false) :
  (compare t u).isLE ↔ t.nanos ≤ u.nanos
  := by
  have htnano := nano_lt ht
  have hunano := nano_lt hu
  have htsecond := t.time.second_lt
  have husecond := u.time.second_lt
  have hdate : compare t.date u.date = compare t.date.number u.date.number := rfl
  change (((compare t.date u.date).then (compare t.time.second u.time.second)).then
    (compare t.time.nano u.time.nano)).isLE ↔ _
  rw [Ordering.isLE_then_iff_or, Ordering.then_eq_lt, Ordering.then_eq_eq, hdate]
  simp only [compare_lt_iff_lt, compare_eq_iff_eq, Std.isLE_compare, nanos, seconds]
  omega

/-- The day of a date-time is that of its point. -/
theorem number_date_eq (h : t.time.isLeap = false) :
  t.date.number = t.nanos / dayNanos
  := by
  have hlt := nano_lt h
  have hsecond := t.time.second_lt
  unfold nanos seconds dayNanos
  omega

end DateTime

namespace Date

/-- No two days are farther apart than the first and the last. -/
theorem natAbs_sub_le
    (a b : Date) :
  (a.number - b.number).natAbs ≤ 191491528
  := by
  have hafirst := a.first_le
  have halast := a.le_last
  have hbfirst := b.first_le
  have hblast := b.le_last
  omega

theorem isLeap_midnight
    (d : Date) :
  d.midnight.time.isLeap = false
  := rfl

theorem nanos_midnight
    (d : Date) :
  d.midnight.nanos = d.number * dayNanos
  := by
  simp only [DateTime.nanos, DateTime.seconds, midnight, TimeOfDay.midnight, dayNanos]
  omega

end Date

end RuleLang
