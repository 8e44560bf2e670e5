/-!
# Decimal — decimal numbers and their digits

A decimal is a whole coefficient with a power of ten.  Its digits are the characters of the
coefficient, most significant first, without superfluous zeros in front.

`fixedPoint` sets a point into a row of digits; `positional` and `scientific` are the two ways to
write a decimal out.
-/

namespace Paddock

/-- The number `coefficient * 10 ^ exponent`. -/
structure Decimal where
  coefficient : Nat
  exponent : Int
deriving DecidableEq

/-- Ten to the power `n`. -/
def tenTo (n : Nat) : Nat := Nat.pow 10 n

/-- The decimal digits of a whole number, most significant first. -/
def digitsOf (n : Nat) : List Char := Nat.toDigits 10 n

/-- A row of digits with a point before the last `places` of them and at least one digit in front
of the point. -/
def fixedPoint (places : Nat) (digits : List Char) : List Char :=
  let padded := List.replicate (places + 1 - digits.length) '0' ++ digits
  let whole := padded.length - places
  padded.take whole ++ '.' :: padded.drop whole

namespace Decimal

/-- The exact value. -/
def toRat (d : Decimal) : Rat := (d.coefficient : Rat) * (10 : Rat) ^ d.exponent

/-- The digits of the coefficient. -/
def digits (d : Decimal) : List Char := digitsOf d.coefficient

/-- The power of ten of the leading digit. -/
def leadingExponent (d : Decimal) : Int := d.exponent + (d.digits.length : Int) - 1

/-- The number of zeros at the end of the digits of a whole number. -/
def trailingZeros (n : Nat) : Nat := ((digitsOf n).reverse.takeWhile (· == '0')).length

/-- The same number with the zeros at the end of its coefficient moved into the exponent. -/
def trim (d : Decimal) : Decimal :=
  let zeros := trailingZeros d.coefficient
  ⟨d.coefficient / tenTo zeros, d.exponent + (zeros : Int)⟩

/-- Digits and a point, with at least one digit on either side of it. -/
def positional (d : Decimal) : List Char :=
  if d.exponent < 0 then fixedPoint d.exponent.natAbs d.digits
  else fixedPoint 1 (d.digits ++ List.replicate (d.exponent.natAbs + 1) '0')

/-- One digit, the others after a point if there are any, and the power of ten. -/
def scientific (d : Decimal) : List Char :=
  let mantissa := match d.digits with
    | [] => []
    | [first] => [first]
    | first :: rest => first :: '.' :: rest
  mantissa ++ 'e' :: d.leadingExponent.repr.toList

end Decimal

end Paddock
