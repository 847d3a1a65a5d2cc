import RuleLang.Duration.Shift
import RuleLang.Eval.Error
import RuleLang.Number.Binary
import RuleLang.Value.Text

/-!
# Arithmetic of values

Integers are computed exactly or refused.  As soon as one of two numbers is a float both
are taken as floats.  Addition joins strings, and dates move by durations.
-/

namespace RuleLang.Value

/-- The result of arithmetic on words, refused if it is no word. -/
def ofWord? (site : OverflowSite) : Option Int64 → Except EvalError Value
  | some n => return int n
  | none => throw (.integerOverflow site)

/-- The result of arithmetic on durations, refused if an amount is no word. -/
def ofDuration? (site : OverflowSite) : Option Duration → Except EvalError Value
  | some d => return duration d
  | none => throw (.integerOverflow site)

/-- The result of arithmetic on two numbers as floats; anything else is a mismatch. -/
def floats (op : ArithmeticOp) (f : Float → Float → Except EvalError Value) (a b : Value) :
    Except EvalError Value :=
  match a.asFloat?, b.asFloat? with
  | some x, some y => f x y
  | _, _ => throw (.mismatch (.arithmetic op) [a, b])

/-- A day moved by a duration.  It stays a day while the duration has whole days only. -/
def shiftDate (move : DateMove) (moved : DateTime → Option DateTime) (d : Duration)
    (day : Date) : Except EvalError Value :=
  match moved day.midnight with
  | some t => return if d.isDateOnly then date t.date else dateTime t
  | none => throw (.dateOutOfRange move)

/-- A date-time moved. -/
def shiftDateTime (move : DateMove) (moved : DateTime → Option DateTime) (t : DateTime) :
    Except EvalError Value :=
  match moved t with
  | some t => return dateTime t
  | none => throw (.dateOutOfRange move)

/-- The sum of two values. -/
def add : Value → Value → Except EvalError Value
  | int x, int y => ofWord? (.arithmetic .add) (Word.add? x y)
  | str s, other => return str (s ++ other.text)
  | other, str s => return str (other.text ++ s)
  | duration d, duration e => ofDuration? (.arithmetic .add) (d.add? e)
  | date day, duration d => shiftDate .add d.addTo? d day
  | dateTime t, duration d => shiftDateTime .add d.addTo? t
  | duration d, date day => shiftDate .add d.addTo? d day
  | duration d, dateTime t => shiftDateTime .add d.addTo? t
  | a, b => floats .add (fun x y => return float (x + y)) a b

/-- The difference of two values. -/
def subtract : Value → Value → Except EvalError Value
  | int x, int y => ofWord? (.arithmetic .subtract) (Word.sub? x y)
  | duration d, duration e => ofDuration? (.arithmetic .subtract) (d.sub? e)
  | date day, duration d => shiftDate .subtract d.subtractFrom? d day
  | dateTime t, duration d => shiftDateTime .subtract d.subtractFrom? t
  | date a, date b => return duration (.betweenDates b a)
  | date a, dateTime b => return duration (.between b a.midnight)
  | dateTime a, date b => return duration (.between b.midnight a)
  | dateTime a, dateTime b => return duration (.between b a)
  | a, b => floats .subtract (fun x y => return float (x - y)) a b

/-- The product of two values. -/
def multiply : Value → Value → Except EvalError Value
  | int x, int y => ofWord? (.arithmetic .multiply) (Word.mul? x y)
  | duration d, int n => ofDuration? (.arithmetic .multiply) (d.mul? n)
  | int n, duration d => ofDuration? (.arithmetic .multiply) (d.mul? n)
  | a, b => floats .multiply (fun x y => return float (x * y)) a b

/-- The quotient of two values.  It is an integer when one integer divides the other. -/
def divide : Value → Value → Except EvalError Value
  | int x, int y =>
    if y = 0 then throw .divisionByZero
    else
      match int64? (x.toInt.tdiv y.toInt) with
      | none => throw (.integerOverflow (.arithmetic .divide))
      | some q =>
        return if x.toInt.tmod y.toInt = 0 then int q
          else float (Word.toFloat x / Word.toFloat y)
  | a, b =>
    floats .divide (fun x y => if y == 0 then throw .divisionByZero else return float (x / y)) a b

/-- The remainder of two values, with the sign of the first.  The remainder of the least
word by -1 is refused as its quotient is no word. -/
def modulo : Value → Value → Except EvalError Value
  | int x, int y =>
    if y = 0 then throw .moduloByZero
    else if x = Int64.minValue ∧ y = -1 then throw (.integerOverflow (.arithmetic .modulo))
    else return int (Int64.ofInt (x.toInt.tmod y.toInt))
  | a, b =>
    floats .modulo
      (fun x y => if y == 0 then throw .moduloByZero else return float (floatRemainder x y)) a b

/-- The result of an operation of arithmetic. -/
def arithmetic : ArithmeticOp → Value → Value → Except EvalError Value
  | .add => add
  | .subtract => subtract
  | .multiply => multiply
  | .divide => divide
  | .modulo => modulo

/-- The opposite of a value. -/
def negate : Value → Except EvalError Value
  | int n => ofWord? .negate (Word.neg? n)
  | float x => return float (-x)
  | duration d => ofDuration? .negate d.neg?
  | v => throw (.mismatch .negate [v])

/-- The date-time that lies a duration before or after the present. -/
def relative (present : DateTime) (direction : Direction) (d : Duration) :
    Except EvalError Value :=
  match direction with
  | .ago => shiftDateTime .relative d.subtractFrom? present
  | .fromNow => shiftDateTime .relative d.addTo? present

end RuleLang.Value
