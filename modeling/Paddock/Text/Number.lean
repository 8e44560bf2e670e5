import Paddock.Decimal.Shortest

/-!
# Text — numbers

Floating-point numbers are written in two ways.  `exactText` shows the shortest decimal that reads
back, positionally when its leading digit stands between the powers `10 ^ -4` and `10 ^ 15` and
with an exponent elsewhere.  `fixedText` shows two places, rounded from the exact value with a half
going to the even neighbour.  Both keep the sign of a zero, and neither puts a sign on NaN.
-/

namespace Paddock

/-- The text of a whole number. -/
def intText (n : Int32) : String := n.toInt.repr

/-- The powers of ten for whose digits a number is written positionally. -/
structure PositionalRange where
  least : Int
  greatest : Int

/-- Numbers are positional from one ten-thousandth up to sixteen digits before the point. -/
def positionalRange : PositionalRange := ⟨-4, 15⟩

/-- The written form of a decimal. -/
def Decimal.text (d : Decimal) : List Char :=
  if positionalRange.least ≤ d.leadingExponent ∧ d.leadingExponent ≤ positionalRange.greatest then
    d.positional
  else d.scientific

namespace Binary

variable {f : Format}

/-- The sign in front of a number. -/
def signText (negative : Bool) : String := if negative then "-" else ""

/-- A number written by `magnitudeText`, with the sign and the names of the values that are not
finite. -/
def textWith (magnitudeText : Nat → List Char) : Binary f → String
  | nan => "NaN"
  | inf negative => signText negative ++ "inf"
  | finite negative rank => signText negative ++ String.ofList (magnitudeText rank)

/-- The shortest text that reads back as the number. -/
def exactText (x : Binary f) : String := x.textWith fun rank => (Decimal.shortest f rank).text

/-- The magnitude of a rank in hundredths, rounded. -/
def hundredths (f : Format) (rank : Nat) : Nat := nearestEven (magnitude f rank * 100)

/-- The number with two places. -/
def fixedText (x : Binary f) : String :=
  x.textWith fun rank => fixedPoint 2 (digitsOf (hundredths f rank))

end Binary

end Paddock
