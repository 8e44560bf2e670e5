import Paddock.Binary.Basic

/-!
# Binary — rounding an exact value to the nearest number

Rounding is a function of an exact rational: the number nearest to it, and of two equally near
numbers the one of even rank.  `nearestRank` measures the value in units, cuts it to as many
binary places as the fraction holds, and rounds there to the nearest whole step.  A value that
rounds up to the next power of two needs no special care: the rank after the last one of a block
is the first one of the next.
-/

namespace Paddock

/-- The whole number nearest to `x ≥ 0`, the even one of two equally near. -/
def nearestEven (x : Rat) : Nat :=
  let below := x.floor.toNat
  let excess := x - (below : Rat)
  if excess < 1 / 2 then below
  else if 1 / 2 < excess then below + 1
  else below + below % 2

namespace Format

/-- The doublings of the spacing at a magnitude of `t` units. -/
def scaleAt (f : Format) (t : Rat) : Nat := t.floor.toNat.log2 - f.fractionBits

/-- The rank nearest to a magnitude of `t ≥ 0` units, on a line of ranks without end. -/
def nearestRank (f : Format) (t : Rat) : Nat :=
  f.scaleAt t * f.lead + nearestEven (t / ((1 <<< f.scaleAt t : Nat) : Rat))

end Format

namespace Binary

variable {f : Format}

/-- The number of a sign and a rank; a rank beyond the finite ones is an infinity. -/
def ofRank (negative : Bool) (rank : Nat) : Binary f :=
  if h : rank < f.infinityRank then finite negative ⟨rank, h⟩ else inf negative

/-- The number nearest to a signed magnitude `x ≥ 0`; the sign stays on a zero. -/
def round (negative : Bool) (x : Rat) : Binary f :=
  ofRank negative (f.nearestRank (x * (f.unitsPerOne : Rat)))

/-- The number nearest to an exact value; zero is positive. -/
def ofRat (x : Rat) : Binary f :=
  if x < 0 then round true (-x) else round false x

/-- The number nearest to a whole number. -/
def ofInt (n : Int) : Binary f := ofRat (n : Rat)

end Binary

end Paddock
