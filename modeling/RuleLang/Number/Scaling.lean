import RuleLang.Number.Rounding

/-!
# Scaled words

A quick way to a float from decimal digits.  `Decimal.ofWord` keeps of the digits what an
unsigned 64-bit word can hold, and `Decimal.scaled?` multiplies or divides the
float of that word by powers of ten.  Every step rounds, so that the float may
be some places beside the nearest one, which is what `Decimal.toFloat` finds.
-/

namespace RuleLang

/-- The number `n` with digits behind it as long as it stays below `2 ^ 64`, and the
digits that are left over. -/
def appendDigits (n : Nat) : List Char → Nat × List Char
  | [] => (n, [])
  | c :: cs =>
    let m := 10 * n + (c.toNat - '0'.toNat)
    if m < 18446744073709551616 then appendDigits m cs else (n, c :: cs)

namespace Decimal

/-- The decimal written `whole.fraction` times `10 ^ exponent`, its coefficient cut to a
word.  Digits before the point that are cut off count for the exponent, and digits behind
it that are cut off do not count at all. -/
def ofWord (whole fraction : List Char) (exponent : Int) : Decimal :=
  let (n, cutWhole) := appendDigits 0 whole
  let (n, cutFraction) := appendDigits n fraction
  ⟨n, exponent + cutWhole.length + cutFraction.length - fraction.length⟩

/-- The greatest power of ten that is a float. -/
def greatestPower : Nat := 308

/-- The float nearest to a power of ten. -/
def floatPower (exponent : Nat) : Float :=
  toFloat false ⟨1, exponent⟩

/-- The float `x` divided by `10 ^ exponent`, by the greatest power of ten at a time. -/
def scaledDown (x : Float) (exponent : Nat) : Float :=
  if exponent ≤ greatestPower then x / floatPower exponent
  else if x == 0 then x
  else scaledDown (x / floatPower greatestPower) (exponent - greatestPower)
termination_by exponent
decreasing_by simp only [greatestPower] at *; omega

/-- A power of ten that is a float is divided by at once. -/
theorem scaledDown_of_le
    {x : Float} {exponent : Nat} (h : exponent ≤ greatestPower) :
  scaledDown x exponent = x / floatPower exponent
  := by
  rw [scaledDown, if_pos h]

/-- The float of the coefficient times the power of ten, negated when `negative` is
set, unless it is above all floats. -/
def scaled? (negative : Bool) (d : Decimal) : Option Float :=
  let x := toFloat false ⟨d.coefficient, 0⟩
  let magnitude :=
    if d.exponent < 0 then some (scaledDown x (-d.exponent).toNat)
    else if d.exponent ≤ greatestPower then some (x * floatPower d.exponent.toNat)
    else if x == 0 then some x
    else none
  (magnitude.filter Float.isFinite).map fun y => if negative then -y else y

end Decimal

end RuleLang
