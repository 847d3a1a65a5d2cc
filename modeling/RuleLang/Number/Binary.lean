/-!
# Binary floating point

A finite float is a natural number times a power of two, with a sign.
`Binary.ofFloat` reads sign, mantissa and exponent off the bits of a float, and
`ofFraction` rounds a fraction of natural numbers to the nearest float, a tie
going to the even mantissa.  Both are exact arithmetic of natural numbers.
-/

namespace RuleLang

/-- The power of a base with a positive exponent, and one for every other exponent. -/
def power (base : Nat) (exponent : Int) : Nat := Nat.pow base exponent.toNat

@[simp]
theorem power_of_nonpos
    (base : Nat) {exponent : Int} (h : exponent ≤ 0) :
  power base exponent = 1
  := by
  rw [power, Int.toNat_of_nonpos h]
  rfl

/-- What the bits of a float say.  `finite s m q` is `m * 2 ^ q`, negated when
`s` is set; zero keeps its sign. -/
inductive Binary where
  | nan
  | infinite (negative : Bool)
  | finite (negative : Bool) (mantissa : Nat) (exponent : Int)
deriving DecidableEq, Repr

namespace Binary

/-- The mantissa of every float is below `2 ^ 53`, and at least `2 ^ 52` unless the
exponent is `minExponent`. -/
def hiddenBit : Nat := 4503599627370496

/-- The bit that is set in negative floats, above all others. -/
def signBit : Nat := 9223372036854775808

/-- The least exponent of a finite float, which every subnormal float has. -/
def minExponent : Int := -1074

/-- The biased exponent that marks infinities and NaN. -/
def topExponent : Nat := 2047

/-- Sign, mantissa and exponent of a float.  Below the sign bit stand eleven bits of
biased exponent and fifty-two of mantissa; the hidden bit is added unless the biased
exponent is zero. -/
def ofFloat (x : Float) : Binary :=
  let bits := x.toBits.toNat
  let negative := bits / signBit = 1
  let biased := bits / hiddenBit % 2048
  let field := bits % hiddenBit
  if biased = topExponent then
    if field = 0 then .infinite negative else .nan
  else if biased = 0 then .finite negative field minExponent
  else .finite negative (hiddenBit + field) (minExponent + biased - 1)

/-- The float with the given sign and the given bits below the sign. -/
def signed (negative : Bool) (magnitude : Nat) : Float :=
  Float.ofBits (UInt64.ofNat (if negative then signBit + magnitude else magnitude))

/-- The bits of positive infinity. -/
def infinityBits : Nat := topExponent * hiddenBit

/-- `n / d` rounded to the nearest natural number, a tie going to the even one. -/
def divToEven (n d : Nat) : Nat :=
  let q := n / d
  let r := n % d
  if 2 * r < d then q
  else if d < 2 * r then q + 1
  else q + q % 2

/-- The fraction `n / d` scaled by `2 ^ (-e)`, as a fraction. -/
def scale (n d : Nat) (e : Int) : Nat × Nat :=
  (n * power 2 (-e), d * power 2 e)

/-- The exponent `e` with `2 ^ e ≤ n / d < 2 ^ (e + 1)`, for positive `n` and `d`. -/
def floorLog2 (n d : Nat) : Int :=
  let e : Int := (Nat.log2 n : Int) - Nat.log2 d
  let (n', d') := scale n d e
  if d' ≤ n' then e else e - 1

/-- The bits of the float nearest to the positive fraction `n / d`.  The exponent
keeps fifty-three bits of mantissa, or is the least one; a mantissa rounded up to
`2 ^ 53` carries into the exponent, which is the next float. -/
def bitsOfFraction (n d : Nat) : Nat :=
  let e := max (floorLog2 n d - 52) minExponent
  let (n', d') := scale n d e
  (e - minExponent).toNat * hiddenBit + divToEven n' d'

/-- The float nearest to `n / d`, negated when `negative` is set; infinite when that
is out of range. -/
def ofFraction (negative : Bool) (n d : Nat) : Float :=
  if n = 0 then signed negative 0
  else signed negative (min (bitsOfFraction n d) infinityBits)

/-- The integer that a finite float is, its fraction dropped. -/
def truncate? : Binary → Option Int
  | .finite negative m q =>
    let n : Int := ((m * power 2 q) / power 2 (-q) : Nat)
    some (if negative then -n else n)
  | _ => none

end Binary

/-- The remainder of `x` by `y` that has the sign of `x` and is smaller than `y`
in magnitude, computed exactly; a zero `y`, an infinite `x` and NaN have none, and an
infinite `y` leaves `x` as it is. -/
def floatRemainder (x y : Float) : Float :=
  match Binary.ofFloat x, Binary.ofFloat y with
  | .finite negative m q, .finite _ m' q' =>
    if m' = 0 then 0.0 / 0.0
    else
      let common := min q q'
      let r := (m * power 2 (q - common)) % (m' * power 2 (q' - common))
      Binary.ofFraction negative (r * power 2 common) (power 2 (-common))
  | .finite .., .infinite _ => x
  | _, _ => 0.0 / 0.0

end RuleLang
