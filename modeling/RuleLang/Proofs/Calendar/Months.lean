import Mathlib.Order.Monotone.Basic
import Mathlib.Tactic.IntervalCases
import RuleLang.Calendar.Date

/-!
# Months

Months are numbered, month 0 being January of the year 0, so that to go on by months is to add
them to the number.  A day is its place in its month behind the first day of the month, and the
months follow one another without gaps.  Hence the day some months later, which is the last one of
a month that is too short, is never before the day as many months later than an earlier day.
-/

namespace RuleLang

/-- The number of the first day of March of a year. -/
def marchOf (year : Int) : Int := Civil.dayNumber ⟨year, 3, 1⟩

/-- The leap day of a year lies before its March. -/
theorem marchOf_eq
    (year : Int) :
  marchOf year = marchOf (year - 1) + 365 + if isLeapYear year then 1 else 0
  := by
  simp only [marchOf, Civil.dayNumber, isLeapYear, decide_eq_true_eq]
  split <;> omega

namespace Civil

/-- January and February are the last months of a year that begins in March. -/
theorem dayNumber_eq_marchOf
    (year : Int) (month day : Nat) :
  dayNumber ⟨year, month, day⟩ = marchOf (if month ≤ 2 then year - 1 else year)
    + (153 * ((month + 9) % 12) + 2) / 5 + day - 1
  := by
  simp only [marchOf, dayNumber]
  omega

/-- The months of a year follow one another. -/
theorem dayNumber_next_month
    (year : Int) {month : Nat} (hpos : 1 ≤ month) (hlt : month < 12) :
  dayNumber ⟨year, month + 1, 1⟩ = dayNumber ⟨year, month, 1⟩ + daysInMonth year month
  := by
  have hmarch := marchOf_eq year
  simp only [dayNumber_eq_marchOf, daysInMonth]
  -- between February and March one year from March to March ends and the next begins
  interval_cases month <;> split_ifs at hmarch ⊢ <;> omega

/-- January follows December. -/
theorem dayNumber_next_year
    (year : Int) :
  dayNumber ⟨year + 1, 1, 1⟩ = dayNumber ⟨year, 12, 1⟩ + 31
  := by
  rw [dayNumber_eq_marchOf, dayNumber_eq_marchOf, if_pos (by decide), if_neg (by decide),
    Int.add_sub_cancel]
  omega

end Civil

/-! ### Months by their numbers -/

namespace Month

/-- The number of the first day of a month. -/
def start (n : Int) : Int := Civil.dayNumber ⟨n / 12, (n % 12).toNat + 1, 1⟩

/-- The number of days of a month. -/
def length (n : Int) : Nat := daysInMonth (n / 12) ((n % 12).toNat + 1)

/-- The number of a day of a month, or of the last day of a month that is too short. -/
def day (n : Int) (i : Nat) : Int := start n + min i (length n) - 1

theorem start_add_one
    (n : Int) :
  start (n + 1) = start n + length n
  := by
  unfold start length
  by_cases hlast : n % 12 = 11
  · have hdiv : (n + 1) / 12 = n / 12 + 1 := by omega
    have hmod : (n + 1) % 12 = 0 := by omega
    rw [hdiv, hmod, hlast]
    apply Civil.dayNumber_next_year
  · have hdiv : (n + 1) / 12 = n / 12 := by omega
    have hmod : ((n + 1) % 12).toNat = (n % 12).toNat + 1 := by omega
    rw [hdiv, hmod]
    apply Civil.dayNumber_next_month <;> omega

theorem start_mono {m n : Int} (h : m ≤ n) :
  start m ≤ start n
  := by
  have hmono : Monotone start := by
    apply monotone_int_of_le_succ
    intro n
    rw [start_add_one]
    omega
  exact hmono h

/-- A month ends before a later one begins. -/
theorem start_add_length_le {m n : Int} (h : m < n) :
  start m + length m ≤ start n
  := by
  rw [← start_add_one]
  apply start_mono h

/-- The days of a month lie before those of a later one. -/
theorem day_lt_start {m n : Int} (h : m < n) (i : Nat) :
  day m i < start n
  := by
  have hle := start_add_length_le h
  unfold day
  omega

/-- The days of a month are in order, and the last of them counts for the ones behind it. -/
theorem day_le_day {m n : Int} {i j : Nat} (h : m < n ∨ m = n ∧ i ≤ j) :
  day m i ≤ day n j
  := by
  obtain hlt | ⟨rfl, hle⟩ := h
  · have hbefore := day_lt_start hlt i
    unfold day at hbefore ⊢
    omega
  · unfold day
    omega

/-- Days that there are are in order only if their months are, and then they. -/
theorem lt_or_le_of_day_le_day {m n : Int} {i j : Nat} (hi : 1 ≤ i) (hle : i ≤ length m)
    (h : day m i ≤ day n j) :
  m < n ∨ m = n ∧ i ≤ j
  := by
  obtain hlt | rfl | hgt := lt_trichotomy m n
  · exact .inl hlt
  · right
    unfold day at h
    omega
  · have hbefore := day_lt_start hgt j
    unfold day at h hbefore
    omega

end Month

/-! ### Days in their months -/

namespace Civil

/-- The number of the month in which a day lies. -/
def monthNumber (c : Civil) : Int := 12 * c.year + (c.month - 1)

/-- The day of a month with the given number, or the last day of a month that is too short. -/
def ofMonth (n : Int) (i : Nat) : Civil := ⟨n / 12, (n % 12).toNat + 1, min i (Month.length n)⟩

variable {c : Civil}

theorem day_pos (h : c.isValid) :
  1 ≤ c.day
  := (of_decide_eq_true h).2.2.1

/-- The month with the number of the month of a day is that month. -/
theorem of_monthNumber (h : c.isValid) :
  c.monthNumber / 12 = c.year ∧ (c.monthNumber % 12).toNat + 1 = c.month
  := by
  obtain ⟨hpos, hle, -⟩ := of_decide_eq_true h
  unfold monthNumber
  omega

/-- A day is one of its month. -/
theorem day_le_length (h : c.isValid) :
  c.day ≤ Month.length c.monthNumber
  := by
  obtain ⟨hyear, hmonth⟩ := of_monthNumber h
  rw [Month.length, hyear, hmonth]
  exact (of_decide_eq_true h).2.2.2

/-- A day is that of its month. -/
theorem ofMonth_monthNumber (h : c.isValid) :
  ofMonth c.monthNumber c.day = c
  := by
  obtain ⟨hyear, hmonth⟩ := of_monthNumber h
  rw [ofMonth, hyear, hmonth, min_eq_left (day_le_length h)]

/-- There is such a day in every month. -/
theorem isValid_ofMonth {i : Nat} (n : Int) (hi : 1 ≤ i) :
  (ofMonth n i).isValid
  := by
  have hlength : 1 ≤ Month.length n := by
    unfold Month.length daysInMonth
    split_ifs <;> decide
  rw [isValid, decide_eq_true_eq]
  change 1 ≤ (n % 12).toNat + 1 ∧ (n % 12).toNat + 1 ≤ 12 ∧ 1 ≤ min i (Month.length n)
    ∧ min i (Month.length n) ≤ Month.length n
  omega

theorem dayNumber_ofMonth
    (n : Int) (i : Nat) :
  (ofMonth n i).dayNumber = Month.day n i
  := by
  rw [ofMonth, Month.day, Month.start, dayNumber_eq_marchOf, dayNumber_eq_marchOf]
  omega

end Civil

/-! ### Going on by months -/

namespace Date

variable {a b : Date}

theorem isValid_civil
    (d : Date) :
  d.civil.isValid
  := Civil.isValid_ofDayNumber d.number

theorem number_eq_day
    (d : Date) :
  d.number = Month.day d.civil.monthNumber d.civil.day
  := by
  rw [← Civil.dayNumber_ofMonth, Civil.ofMonth_monthNumber d.isValid_civil, civil,
    Civil.dayNumber_ofDayNumber]

/-- The number of the day that is `months` months later, whether it is in range or not. -/
def numberAfter (d : Date) (months : Int) : Int :=
  Month.day (d.civil.monthNumber + months) d.civil.day

/-- A day goes on by months if the day that it comes to is in range. -/
theorem addMonths?_eq
    (d : Date) (months : Int) :
  d.addMonths? months = ofNumber? (d.numberAfter months)
  := by
  have hvalid := Civil.isValid_ofMonth (d.civil.monthNumber + months)
    (Civil.day_pos d.isValid_civil)
  change ofCivil? (Civil.ofMonth (d.civil.monthNumber + months) d.civil.day) = _
  rw [ofCivil?, if_pos hvalid, Civil.dayNumber_ofMonth]
  rfl

theorem numberAfter_zero
    (d : Date) :
  d.numberAfter 0 = d.number
  := by
  rw [numberAfter, Int.add_zero, number_eq_day]

/-- No day overtakes another when both go on by as many months. -/
theorem numberAfter_mono (h : a.number ≤ b.number) (months : Int) :
  a.numberAfter months ≤ b.numberAfter months
  := by
  rw [number_eq_day a, number_eq_day b] at h
  apply Month.day_le_day
  obtain hlt | ⟨heq, hle⟩ := Month.lt_or_le_of_day_le_day (Civil.day_pos a.isValid_civil)
    (Civil.day_le_length a.isValid_civil) h
  · exact .inl (Int.add_lt_add_right hlt months)
  · exact .inr ⟨congrArg (· + months) heq, hle⟩

end Date

end RuleLang
