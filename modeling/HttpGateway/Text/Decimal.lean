/-!
# Decimal fractions

From decimals to floating-point numbers. Decimals far outside the range of floating-point numbers
are settled by their magnitude alone, so that a huge exponent costs nothing.
-/

namespace HttpGateway.Text

/-- A decimal of at least ten to this power is infinite, and one below ten to the power of minus
this is zero. -/
def farExponent : Int := 400

/-- The number nearest to `digits · 10 ^ exponent`. -/
def nearestFloat (digits : Nat) (exponent : Int) : Float :=
  let size : Int := (Nat.toDigits 10 digits).length + exponent
  if digits = 0 ∨ size < -farExponent then 0.0
  else if farExponent < size then 1.0 / 0.0
  else Float.ofScientific digits (exponent < 0) exponent.natAbs

/-- The largest power of ten that is used as one factor. -/
def largestPower : Nat := 308

/-- The number `digits · 10 ^ exponent`, where the digits are a word of 64 bits, by one conversion and
one multiplication or division, each of which is rounded. For up to fifteen digits and small
exponents this is the nearest number; otherwise it may be one beside it. Exponents below the range
take a division more. -/
def scaledFloat (digits : Nat) (exponent : Int) : Float :=
  let x := digits.toUInt64.toFloat
  if 0 ≤ exponent then
    if exponent ≤ largestPower then x * nearestFloat 1 exponent
    else if digits = 0 then 0.0 else 1.0 / 0.0
  else if -largestPower ≤ exponent then x / nearestFloat 1 (-exponent)
  else if -(2 * largestPower) ≤ exponent then
    x / nearestFloat 1 largestPower / nearestFloat 1 (-exponent - largestPower)
  else 0.0

end HttpGateway.Text
