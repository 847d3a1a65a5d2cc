/-!
# Dates

A `Date` is a day of the proleptic Gregorian calendar, numbered from 1970-01-01.
`Date.civil` names its year, month and day of the month, and `Date.ofCivil?` finds the
day that such a name stands for.  Years are counted from March in between, so that the
leap day is the last of its year and the months before it follow one rule.
-/

namespace RuleLang

/-- A year that is a multiple of four has a leap day, unless it is a multiple of a
hundred and not of four hundred. -/
def isLeapYear (year : Int) : Bool :=
  year % 4 = 0 ∧ (year % 100 ≠ 0 ∨ year % 400 = 0)

/-- The number of days of a month, January being 1. -/
def daysInMonth (year : Int) (month : Nat) : Nat :=
  if month = 2 then if isLeapYear year then 29 else 28
  else if month = 4 ∨ month = 6 ∨ month = 9 ∨ month = 11 then 30
  else 31

/-- The year, month and day of the month by which a day is called. -/
structure Civil where
  year : Int
  month : Nat
  day : Nat
deriving DecidableEq, Repr

namespace Civil

/-- Whether there is such a month, and such a day in it. -/
def isValid (c : Civil) : Bool :=
  1 ≤ c.month ∧ c.month ≤ 12 ∧ 1 ≤ c.day ∧ c.day ≤ daysInMonth c.year c.month

/-- The number of the day so called, 1970-01-01 being day 0.  Counted from March, a
month `m` begins `(153 * m + 2) / 5` days into its year, and four hundred years have
146097 days. -/
def dayNumber (c : Civil) : Int :=
  let month : Int := (c.month + 9) % 12
  let year : Int := if c.month ≤ 2 then c.year - 1 else c.year
  let yearOfEra := year % 400
  let dayOfYear := (153 * month + 2) / 5 + c.day - 1
  let dayOfEra := 365 * yearOfEra + yearOfEra / 4 - yearOfEra / 100 + dayOfYear
  year / 400 * 146097 + dayOfEra - 719468

/-- The name of the day with the given number.  The day is sought among the eras of
four hundred years, then the centuries of an era, the spans of four years of a century
and the years of a span; the last century of an era and the last year of a span are
longer than the others by a day. -/
def ofDayNumber (n : Int) : Civil :=
  let shifted := n + 719468
  let dayOfEra := shifted % 146097
  let century := min (dayOfEra / 36524) 3
  let dayOfCentury := dayOfEra - 36524 * century
  let span := dayOfCentury / 1461
  let dayOfSpan := dayOfCentury % 1461
  let yearOfSpan := min (dayOfSpan / 365) 3
  let dayOfYear := dayOfSpan - 365 * yearOfSpan
  let month := (5 * dayOfYear + 2) / 153
  let day := dayOfYear - (153 * month + 2) / 5 + 1
  let year := 400 * (shifted / 146097) + 100 * century + 4 * span + yearOfSpan
  if month < 10 then ⟨year, (month + 3).toNat, day.toNat⟩
  else ⟨year + 1, (month - 9).toNat, day.toNat⟩

/-- The name of a day is the name of that day. -/
@[simp]
theorem dayNumber_ofDayNumber
    (n : Int) :
  (ofDayNumber n).dayNumber = n
  := by
  unfold ofDayNumber
  extract_lets shifted dayOfEra century dayOfCentury span dayOfSpan yearOfSpan dayOfYear
    month day year
  have hera : 0 ≤ dayOfEra ∧ dayOfEra < 146097 := by omega
  have hcentury : 0 ≤ century ∧ century ≤ 3 := by omega
  have hspan : 0 ≤ span ∧ span ≤ 24 := by omega
  have hyear : 0 ≤ yearOfSpan ∧ yearOfSpan ≤ 3 := by omega
  have hday : 0 ≤ dayOfYear ∧ dayOfYear ≤ 365 := by omega
  have hmonth : 0 ≤ month ∧ month < 12 := by omega
  have hpos : 0 < day := by omega
  have hdiv : year / 400 = shifted / 146097 := by omega
  have hmod : year % 400 = 100 * century + 4 * span + yearOfSpan := by omega
  have hleap : (100 * century + 4 * span + yearOfSpan) / 4 = 25 * century + span := by omega
  have hskip : (100 * century + 4 * span + yearOfSpan) / 100 = century := by omega
  unfold dayNumber
  split
  · have h : ((month + 3).toNat + 9 : Int) % 12 = month := by omega
    dsimp only
    rw [if_neg (by omega), h, hdiv, hmod, hleap, hskip]
    omega
  · have h : ((month - 9).toNat + 9 : Int) % 12 = month := by omega
    dsimp only
    rw [if_pos (by omega), h, Int.add_sub_cancel, hdiv, hmod, hleap, hskip]
    omega

/-- The name of a day is well formed. -/
@[simp]
theorem isValid_ofDayNumber
    (n : Int) :
  (ofDayNumber n).isValid
  := by
  unfold ofDayNumber
  extract_lets shifted dayOfEra century dayOfCentury span dayOfSpan yearOfSpan dayOfYear
    month day year
  have hera : 0 ≤ dayOfEra ∧ dayOfEra < 146097 := by omega
  have hcentury : 0 ≤ century ∧ century ≤ 3 := by omega
  have hspan : 0 ≤ span ∧ span ≤ 24 := by omega
  have hyear : 0 ≤ yearOfSpan ∧ yearOfSpan ≤ 3 := by omega
  have hday : 0 ≤ dayOfYear ∧ dayOfYear ≤ 365 := by omega
  have hmonth : 0 ≤ month ∧ month < 12 := by omega
  have hpos : 0 < day := by omega
  split
  · simp only [isValid, daysInMonth, decide_eq_true_eq]
    refine ⟨by omega, by omega, by omega, ?_⟩
    rw [if_neg (by omega)]
    split <;> omega
  · simp only [isValid, daysInMonth, isLeapYear, decide_eq_true_eq]
    refine ⟨by omega, by omega, by omega, ?_⟩
    split
    · split <;> omega
    · split <;> omega

end Civil

/-- A day from -262143-01-01 to 262142-12-31, by its number. -/
structure Date where
  number : Int
  first_le : -96465292 ≤ number := by omega
  le_last : number ≤ 95026236 := by omega
deriving DecidableEq, Repr

namespace Date

@[ext]
theorem ext
    {a b : Date} (h : a.number = b.number) :
  a = b
  := by
  cases a
  cases b
  simp_all

/-- The day with the given number, if it is in range. -/
def ofNumber? (n : Int) : Option Date :=
  if h : -96465292 ≤ n ∧ n ≤ 95026236 then some ⟨n, h.1, h.2⟩ else none

@[simp]
theorem ofNumber?_number
    (d : Date) :
  ofNumber? d.number = some d
  := by
  simp [ofNumber?, d.first_le, d.le_last]

theorem number_of_ofNumber?_eq_some
    {n : Int} {d : Date} (h : ofNumber? n = some d) :
  d.number = n
  := by
  unfold ofNumber? at h
  split at h
  · obtain rfl := Option.some.inj h
    rfl
  · contradiction

/-- The name of a day. -/
def civil (d : Date) : Civil := Civil.ofDayNumber d.number

/-- The day so called, if there is one in range. -/
def ofCivil? (c : Civil) : Option Date :=
  if c.isValid then ofNumber? c.dayNumber else none

/-- A day is found again by its name. -/
@[simp]
theorem ofCivil?_civil
    (d : Date) :
  ofCivil? d.civil = some d
  := by
  simp [ofCivil?, civil]

instance : Ord Date where
  compare a b := compare a.number b.number

/-- The same day of the month, `months` months later, or the last day of that month if
it is shorter. -/
def addMonths? (d : Date) (months : Int) : Option Date :=
  let c := d.civil
  let total := 12 * c.year + (c.month - 1) + months
  let year := total / 12
  let month := (total % 12).toNat + 1
  ofCivil? ⟨year, month, min c.day (daysInMonth year month)⟩

end Date

end RuleLang
