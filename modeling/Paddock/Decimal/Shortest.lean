import Paddock.Binary.Round
import Paddock.Decimal.Basic

/-!
# Decimal — the shortest decimal that reads back

A binary magnitude is a finite decimal: with the unit `2 ^ -p` it is `units * 5 ^ p` steps of
`10 ^ -p`.  Cutting its last `cut` digits off leaves a coarser decimal grid, and on each grid only
the two neighbours of the magnitude matter: when any point of the grid rounds to the magnitude,
one of these does.

`shortest` tries the grids from the coarsest on, so the first one with a hit has the fewest
digits.  Of two hits on a grid the nearer is taken, and the larger when both are equally near.
The finest grid holds the magnitude itself, so there is always a hit.
-/

namespace Paddock.Decimal

variable (f : Format)

/-- A magnitude as a whole number of steps `10 ^ -unitExponent`. -/
def exactCoefficient (rank : Nat) : Nat := f.units rank * Nat.pow 5 f.unitExponent

/-- Whether a decimal rounds to the magnitude of a rank. -/
def ReadsBack (rank : Nat) (d : Decimal) : Prop :=
  f.nearestRank (d.toRat * (f.unitsPerOne : Rat)) = rank

/-- Reading back is decided by rounding. -/
instance decidableReadsBack (rank : Nat) (d : Decimal) : Decidable (ReadsBack f rank d) :=
  inferInstanceAs (Decidable (_ = _))

/-- The decimal of `c` steps on the grid without the last `cut` digits. -/
def onGrid (cut c : Nat) : Decimal := ⟨c, (cut : Int) - (f.unitExponent : Int)⟩

/-- The better neighbour of a magnitude on a grid, if one of the two reads back. -/
def neighbour? (rank cut : Nat) : Option Decimal :=
  let exact := exactCoefficient f rank
  let below := exact / tenTo cut
  let lower := onGrid f cut below
  let upper := onGrid f cut (below + 1)
  if ReadsBack f rank lower then
    if ReadsBack f rank upper ∧ tenTo cut ≤ 2 * (exact % tenTo cut) then some upper
    else some lower
  else if ReadsBack f rank upper then some upper
  else none

/-- The first hit on the grids from `cut` digits cut off down to none. -/
def firstHit (rank : Nat) : Nat → Decimal
  | 0 => onGrid f 0 (exactCoefficient f rank)
  | cut + 1 =>
    match neighbour? f rank (cut + 1) with
    | some d => d
    | none => firstHit rank cut

/-- The shortest decimal that reads back as the magnitude of a rank. -/
def shortest (rank : Nat) : Decimal :=
  if rank = 0 then ⟨0, 0⟩
  else (firstHit f rank ((digitsOf (exactCoefficient f rank)).length - 1)).trim

end Paddock.Decimal
