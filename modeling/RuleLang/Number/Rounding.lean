import RuleLang.Number.Shortest

/-!
# Reading decimals

The float nearest to a decimal, `Decimal.toFloat`, and the numbers that digits stand
for.  A decimal whose first digit stands far above or below every float is infinite or
zero without its power of ten being computed.
-/

namespace RuleLang

/-- The natural number whose decimal digits are `cs`. -/
def digitsValue (cs : List Char) : Nat :=
  cs.foldl (fun n c => 10 * n + (c.toNat - '0'.toNat)) 0

/-- From here on, an exponent is so great that more digits of it do not count. -/
def exponentBound : Nat := 65536

/-- The power of ten that the digits behind an exponent mark stand for.  Digits are read
until they make `exponentBound` or more; those that follow are passed over. -/
def exponentValue (cs : List Char) : Nat :=
  cs.foldl (fun n c => if n < exponentBound then 10 * n + (c.toNat - '0'.toNat) else n) 0

namespace Decimal

/-- The decimal written `whole.fraction` times `10 ^ exponent`. -/
def ofDigits (whole fraction : List Char) (exponent : Int) : Decimal :=
  ⟨digitsValue (whole ++ fraction), exponent - fraction.length⟩

/-- The float nearest to a decimal, negated when `negative` is set.  Every positive
float lies between `10 ^ (-324)` and `10 ^ 309`. -/
def toFloat (negative : Bool) (d : Decimal) : Float :=
  let leading := d.leadingExponent
  if d.coefficient = 0 ∨ leading < -330 then Binary.signed negative 0
  else if 310 < leading then Binary.signed negative Binary.infinityBits
  else
    Binary.ofFraction negative (d.coefficient * power 10 d.exponent)
      (power 10 (-d.exponent))

end Decimal

end RuleLang
