import RuleLang.Calendar.DateTime
import RuleLang.Number.Rounding
import RuleLang.Text.Blank

/-!
# Reading dates and times

`Date.read` reads a date `Y-M-D`, and `DateTime.read?` a date-time in the forms
`Y-M-DTh:m:s` with an optional fraction, `Y-M-DTh:m`, and the internet form with a
time zone, whose instant is taken at offset zero.  A `Scan` takes a prefix of the text
or tells what is wrong with it.
-/

namespace RuleLang

/-- What is wrong with the text of a date. -/
inductive CalendarFault where
  | invalid
  | tooShort
  | tooLong
  | outOfRange
deriving DecidableEq, Repr

/-- The wording of a fault. -/
def CalendarFault.message : CalendarFault → String
  | .invalid => "input contains invalid characters"
  | .tooShort => "premature end of input"
  | .tooLong => "trailing input"
  | .outOfRange => "input is out of range"

/-- What a clock shows. -/
structure Clock where
  hour : Nat
  minute : Nat
  second : Nat := 0
  nano : Nat := 0
deriving DecidableEq, Repr

/-- A reader of a prefix of a text. -/
abbrev Scan := StateT (List Char) (Except CalendarFault)

namespace Scan

/-- Between `least` and `most` decimal digits, as a number that fits in a word. -/
def digits (least most : Nat) : Scan Nat := fun cs =>
  let taken := (cs.take most).takeWhile Char.isDigit
  if cs.length < least then throw .tooShort
  else if taken.length < least then throw .invalid
  else if 9223372036854775808 ≤ digitsValue taken then throw .outOfRange
  else return (digitsValue taken, cs.drop taken.length)

/-- The character `c`. -/
def literal (c : Char) : Scan Unit := fun
  | [] => throw .tooShort
  | d :: cs => if d = c then return ((), cs) else throw .invalid

/-- Any number of blanks. -/
def blanks : Scan Unit := fun cs => return ((), Text.trimStart cs)

/-- A number of one or two digits, blanks before it, from `least` to `most`. -/
def field (least most : Nat) : Scan Nat := do
  blanks
  let n ← digits 1 2
  if least ≤ n ∧ n ≤ most then return n else throw .outOfRange

/-- A year: up to four digits, or a sign and any number of them. -/
def year : Scan Int := do
  blanks
  let y ← signed
  if -2147483648 ≤ y ∧ y < 2147483648 then return y else throw .outOfRange
where
  /-- The number behind an optional sign. -/
  signed : Scan Int := fun
    | '-' :: cs => do
      let (n, rest) ← digits 1 cs.length cs
      return (-n, rest)
    | '+' :: cs => do
      let (n, rest) ← digits 1 cs.length cs
      return (n, rest)
    | cs => do
      let (n, rest) ← digits 1 4 cs
      return (n, rest)

/-- The name of a day. -/
def civil : Scan Civil := do
  let y ← year
  literal '-'
  let m ← field 1 12
  literal '-'
  let d ← field 1 31
  return ⟨y, m, d⟩

/-- The digits of a fraction as nanoseconds, those beyond the ninth dropped. -/
def nanos : Scan Nat := fun cs =>
  let taken := (cs.take 9).takeWhile Char.isDigit
  if cs.isEmpty then throw .tooShort
  else if taken.isEmpty then throw .invalid
  else return (digitsValue taken * power 10 (9 - taken.length), cs.dropWhile Char.isDigit)

/-- A point and a fraction, or nothing. -/
def fraction : Scan Nat := fun
  | '.' :: cs => nanos cs
  | cs => return (0, cs)

/-- The clock `h:m`. -/
def minutes : Scan Clock := do
  let hour ← field 0 23
  literal ':'
  let minute ← field 0 59
  return { hour, minute }

/-- The clock `h:m:s` with an optional fraction. -/
def seconds : Scan Clock := do
  let clock ← minutes
  literal ':'
  let second ← field 0 60
  let nano ← fraction
  return { clock with second, nano }

/-- A day and a clock, in fields of fixed width. -/
def fixedWidth : Scan (Civil × Clock) := do
  let year ← digits 4 4
  literal '-'
  let month ← digits 2 2
  literal '-'
  let day ← digits 2 2
  separator
  let hour ← digits 2 2
  literal ':'
  let minute ← digits 2 2
  literal ':'
  let second ← digits 2 2
  let nano ← fraction
  return (⟨year, month, day⟩, { hour, minute, second, nano })
where
  /-- The letter `T` or a space. -/
  separator : Scan Unit := fun
    | [] => throw .tooShort
    | c :: cs => if c = 'T' ∨ c = 't' ∨ c = ' ' then return ((), cs) else throw .invalid

/-- A time zone as minutes east of offset zero: `Z`, or a sign, two digits of hours, a
colon and two digits of minutes.  The sign may be the minus sign of typography. -/
def zone : Scan Int := fun
  | [] => throw .tooShort
  | 'Z' :: cs | 'z' :: cs => return (0, cs)
  | '+' :: cs => offset cs
  | '-' :: cs | '\u2212' :: cs => do
    let (minutes, rest) ← offset cs
    return (-minutes, rest)
  | _ => throw .invalid
where
  /-- Hours and minutes, in minutes. -/
  offset : Scan Int := do
    let hours ← digits 2 2
    literal ':'
    let minutes ← digits 2 2
    if hours ≤ 23 ∧ minutes ≤ 59 then return 60 * hours + minutes else throw .outOfRange

/-- The value that `scan` reads from a whole text. -/
def whole {α : Type} (scan : Scan α) (cs : List Char) : Except CalendarFault α := do
  let (a, rest) ← scan cs
  if rest.isEmpty then return a else throw .tooLong

end Scan

/-- The day with the given name. -/
def Civil.toDate (c : Civil) : Except CalendarFault Date :=
  match Date.ofCivil? c with
  | some d => return d
  | none => throw .outOfRange

/-- The time that a clock shows, second 60 being the leap second after second 59. -/
def Clock.toTime (c : Clock) : Except CalendarFault TimeOfDay :=
  let second := min c.second 59
  let nano := if c.second = 60 then c.nano + 1000000000 else c.nano
  match TimeOfDay.of? (3600 * c.hour + 60 * c.minute + second) nano with
  | some t => if c.minute ≤ 59 ∧ c.second ≤ 60 then return t else throw .outOfRange
  | none => throw .outOfRange

/-- The date that a text names. -/
def Date.read (cs : List Char) : Except CalendarFault Date := do
  let c ← Scan.whole Scan.civil cs
  c.toDate

namespace DateTime

/-- The date-time that a text names whose clock is read by `clock`. -/
def readLocal (clock : Scan Clock) (cs : List Char) : Except CalendarFault DateTime := do
  let scan : Scan (Civil × Clock) := do
    let c ← Scan.civil
    Scan.literal 'T'
    return (c, ← clock)
  let (c, k) ← Scan.whole scan cs
  return ⟨← c.toDate, ← k.toTime⟩

/-- The instant that a text in the internet form names, at offset zero. -/
def readZoned (cs : List Char) : Except CalendarFault DateTime := do
  let scan : Scan ((Civil × Clock) × Int) := do
    let stamp ← Scan.fixedWidth
    return (stamp, ← Scan.zone)
  let ((c, k), offset) ← Scan.whole scan cs
  let t : DateTime := ⟨← c.toDate, ← k.toTime⟩
  match ofSeconds? (t.seconds - 60 * offset) t.time.nano with
  | some instant => return instant
  | none => throw .outOfRange

/-- The text with a `T` in place of its first space. -/
def joinWithT : List Char → List Char
  | [] => []
  | c :: cs => if c = ' ' then 'T' :: cs else c :: joinWithT cs

/-- The date-time that a text names in the first of the three forms that fits. -/
def read? (cs : List Char) : Option DateTime :=
  let joined := joinWithT cs
  (readLocal Scan.seconds joined).toOption.or
    ((readLocal Scan.minutes joined).toOption.or (readZoned joined).toOption)

end DateTime

end RuleLang
