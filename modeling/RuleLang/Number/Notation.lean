import RuleLang.Number.Shortest

/-!
# Notations of floats

How a float is written.  A `FloatNotation` says which powers of ten are written
positionally, whether an integral number keeps a fraction, how an exponent is signed
and which of two equally near decimals is taken; `FloatNotation.write` writes a float
by it.  The notations of the language are the values `plain`, `fractional`, `tree`
and `document`.
-/

namespace RuleLang

/-- A way to write floats. -/
structure FloatNotation where
  /-- Whether a number whose first digit stands at this power of ten is written
  without an exponent. -/
  positional : Int → Bool
  /-- Whether an integral number in positional notation ends in a zero fraction. -/
  keepsFraction : Bool
  /-- Whether a positive exponent carries its sign. -/
  signsExponent : Bool
  tie : Tie

namespace FloatNotation

/-- Every float is written positionally, an integral one without a fraction. -/
def plain : FloatNotation where
  positional := fun _ => true
  keepsFraction := false
  signsExponent := false
  tie := .up

/-- Every float is written positionally, an integral one with a zero fraction. -/
def fractional : FloatNotation where
  positional := fun _ => true
  keepsFraction := true
  signsExponent := false
  tie := .up

/-- The notation of expression outlines: an exponent below `0.0001` and from `1e16`
up. -/
def tree : FloatNotation where
  positional := fun e => -4 ≤ e ∧ e < 16
  keepsFraction := true
  signsExponent := false
  tie := .up

/-- The notation of JSON documents: an exponent below `0.00001` and from `1e+16`
up. -/
def document : FloatNotation where
  positional := fun e => -5 ≤ e ∧ e < 16
  keepsFraction := true
  signsExponent := true
  tie := .toEven

/-- The text `digits` with a point after `whole` of them, zeros standing in for
digits that are missing on either side. -/
def writePositional (n : FloatNotation) (digits : List Char) (exponent : Int) : List Char :=
  if 0 ≤ exponent then
    digits ++ List.replicate exponent.toNat '0' ++ (if n.keepsFraction then ['.', '0'] else [])
  else
    let places := (-exponent).toNat
    if places < digits.length then
      digits.take (digits.length - places) ++ '.' :: digits.drop (digits.length - places)
    else '0' :: '.' :: (List.replicate (places - digits.length) '0' ++ digits)

/-- The first digit, the others behind a point, and the power of ten of the first. -/
def writeScientific (n : FloatNotation) (digits : List Char) (exponent : Int) : List Char :=
  let fraction := match digits with
    | [] | [_] => []
    | _ :: rest => '.' :: rest
  let sign := if exponent < 0 then ['-'] else if n.signsExponent then ['+'] else []
  digits.take 1 ++ fraction ++ 'e' :: (sign ++ Decimal.digitsOf exponent.natAbs)

/-- The text of a decimal. -/
def writeDecimal (n : FloatNotation) (d : Decimal) : List Char :=
  let digits := Decimal.digitsOf d.coefficient
  if n.positional d.leadingExponent then n.writePositional digits d.exponent
  else n.writeScientific digits d.leadingExponent

/-- The text of a float: its shortest decimal behind its sign, or the name of what is
no number. -/
def write (n : FloatNotation) (x : Float) : String :=
  match Binary.ofFloat x with
  | .nan => "NaN"
  | .infinite negative => if negative then "-inf" else "inf"
  | .finite negative m q =>
    let magnitude :=
      if m = 0 then n.writePositional ['0'] 0
      else n.writeDecimal (Decimal.shortest n.tie m q)
    String.ofList (if negative then '-' :: magnitude else magnitude)

end FloatNotation

end RuleLang
