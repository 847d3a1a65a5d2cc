import RuleLang.Calendar.DateTime
import RuleLang.Number.Shortest

/-!
# The texts of dates and times

A date is written `YYYY-MM-DD`, a date-time `YYYY-MM-DDTHH:MM:SS` with as many groups
of three fraction digits as its nanoseconds need.  A year outside 0 … 9999 carries its
sign, and a leap second is second 60.
-/

namespace RuleLang

/-- The decimal digits of `n`, with zeros before them up to `width`. -/
def padded (width n : Nat) : List Char :=
  let digits := Decimal.digitsOf n
  List.replicate (width - digits.length) '0' ++ digits

namespace Civil

/-- The text of a year. -/
def yearText (year : Int) : List Char :=
  if year < 0 then '-' :: padded 4 year.natAbs
  else if 9999 < year then '+' :: padded 4 year.natAbs
  else padded 4 year.natAbs

/-- The text of a day. -/
def text (c : Civil) : List Char :=
  yearText c.year ++ '-' :: padded 2 c.month ++ '-' :: padded 2 c.day

end Civil

/-- The text of a day. -/
def Date.text (d : Date) : List Char := d.civil.text

/-- The fraction of a second: nothing, or a point and three, six or nine digits. -/
def fractionText (nanos : Nat) : List Char :=
  if nanos = 0 then []
  else if nanos % 1000000 = 0 then '.' :: padded 3 (nanos / 1000000)
  else if nanos % 1000 = 0 then '.' :: padded 6 (nanos / 1000)
  else '.' :: padded 9 nanos

/-- The text of a time of day. -/
def TimeOfDay.text (t : TimeOfDay) : List Char :=
  let second := t.second % 60 + t.nano / 1000000000
  padded 2 (t.second / 3600) ++ ':' :: padded 2 (t.second / 60 % 60)
    ++ ':' :: padded 2 second ++ fractionText (t.nano % 1000000000)

/-- The text of a date-time. -/
def DateTime.text (t : DateTime) : List Char :=
  t.date.text ++ 'T' :: t.time.text

end RuleLang
