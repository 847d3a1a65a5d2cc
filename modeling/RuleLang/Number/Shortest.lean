import RuleLang.Number.Binary

/-!
# Shortest decimals

The shortest decimal that reads back as a given float, and of those the one nearest
to it.  A decimal reads back as `m * 2 ^ q` when it lies between the midpoints to the
two neighbouring floats, the midpoints themselves included exactly when `m` is even.
For 1, 2, … 17 digits the two decimals around the float are tried in exact
arithmetic; where both read back and are equally near, a `Tie` decides.
-/

namespace RuleLang

/-- Which of two equally near decimals is taken. -/
inductive Tie where
  | up
  | toEven
deriving DecidableEq, Repr

/-- The number `coefficient * 10 ^ exponent`. -/
structure Decimal where
  coefficient : Nat
  exponent : Int
deriving DecidableEq, Repr

namespace Decimal

/-- The decimal digits of a natural number, the most significant first. -/
def digitsOf (n : Nat) : List Char := Nat.toDigits 10 n

/-- The power of ten of a decimal's first digit. -/
def leadingExponent (d : Decimal) : Int :=
  d.exponent + (digitsOf d.coefficient).length - 1

/-- The same number with up to `count` zeros taken from the end of its coefficient. -/
def stripZeros (d : Decimal) : (count : Nat) → Decimal
  | 0 => d
  | count + 1 =>
    if d.coefficient % 10 = 0 then
      stripZeros ⟨d.coefficient / 10, d.exponent + 1⟩ count
    else d

/-- The exponent `k` with `10 ^ k ≤ n / d < 10 ^ (k + 1)`, for positive `n` and `d`.
Below one, the fraction needs as many tenfoldings to reach one as the integer below
`d / n` has digits. -/
def floorLog10 (n d : Nat) : Int :=
  if d ≤ n then (digitsOf (n / d)).length - 1
  else -(digitsOf ((d + n - 1) / n - 1)).length

/-- The decimals `c * 10 ^ exponent` beside the float `m * 2 ^ q`: in the unit
`fourth`, a quarter of the float's last place, the float is `4 * m`, and it is read
back from whatever lies between `low` and `high`. -/
structure Grid where
  mantissa : Nat
  /-- A quarter of the last place, on the common scale of the grid. -/
  fourth : Nat
  /-- The step of the grid, on the same scale. -/
  step : Nat
  low : Nat
  high : Nat

namespace Grid

/-- The grid of step `10 ^ exponent` beside `m * 2 ^ q`.  The gap below the least
mantissa of an exponent is half the gap above it. -/
def beside (m : Nat) (q exponent : Int) : Grid where
  mantissa := m
  fourth := power 2 (q - 2) * power 10 (-exponent)
  step := power 2 (2 - q) * power 10 exponent
  low := if m = Binary.hiddenBit ∧ Binary.minExponent < q then 4 * m - 1 else 4 * m - 2
  high := 4 * m + 2

/-- Whether `c` steps of the grid read back as the float. -/
def readsBack (g : Grid) (c : Nat) : Bool :=
  if g.mantissa % 2 = 0 then g.low * g.fourth ≤ c * g.step ∧ c * g.step ≤ g.high * g.fourth
  else g.low * g.fourth < c * g.step ∧ c * g.step < g.high * g.fourth

/-- The greatest number of steps that is not above the float. -/
def floor (g : Grid) : Nat :=
  4 * g.mantissa * g.fourth / g.step

/-- Of the two numbers of steps around the float, the one that reads back, or the
nearer of two that do. -/
def nearest? (g : Grid) (tie : Tie) : Option Nat :=
  let c := g.floor
  match g.readsBack c, g.readsBack (c + 1) with
  | false, false => none
  | true, false => some c
  | false, true => some (c + 1)
  | true, true =>
    let above := 4 * g.mantissa * g.fourth - c * g.step
    let below := (c + 1) * g.step - 4 * g.mantissa * g.fourth
    if above < below then some c
    else if below < above then some (c + 1)
    else match tie with
      | .up => some (c + 1)
      | .toEven => some (c + c % 2)

end Grid

/-- The shortest decimal that reads back as `m * 2 ^ q`, for a positive `m`.
Seventeen digits always suffice. -/
def shortest (tie : Tie) (m : Nat) (q : Int) : Decimal :=
  let first := floorLog10 (4 * m * power 2 (q - 2)) (power 2 (2 - q))
  let candidate (places : Nat) : Option Decimal :=
    let exponent := first - places
    ((Grid.beside m q exponent).nearest? tie).map fun c => stripZeros ⟨c, exponent⟩ (places + 1)
  ((List.range 17).findSome? candidate).getD ⟨m, q⟩

end Decimal

end RuleLang
