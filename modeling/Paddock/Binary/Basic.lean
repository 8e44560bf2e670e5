/-!
# Binary — floating-point numbers of one binary format

A `Format` fixes how many bits hold the fraction and how many hold the exponent.  The finite
magnitudes of a format, taken in increasing order, are numbered from zero: the number of a
magnitude is its *rank*, and it is also the bit pattern without the sign.  So a finite number is
a sign and a rank below `infinityRank`, the successor of a number is one rank further, and
comparing numbers is comparing ranks.

Every magnitude is a whole multiple of the least positive one, the *unit* `2 ^ -unitExponent`.
`units r` counts the units of the magnitude of rank `r`.  Ranks come in blocks of `lead`: within a
block neighbours are `2 ^ scale` units apart, and the first two blocks share the spacing one.

All NaNs of a format are one value; the sign of a zero is kept.
-/

namespace Paddock

/-- The widths of the two fields that follow the sign bit. -/
structure Format where
  fractionBits : Nat
  exponentBits : Nat
deriving DecidableEq

namespace Format

/-- The 32-bit format. -/
abbrev single : Format := ⟨23, 8⟩

/-- The 64-bit format. -/
abbrev double : Format := ⟨52, 11⟩

/-- The number of ranks between a power of two and the next one. -/
def lead (f : Format) : Nat := 1 <<< f.fractionBits

/-- The rank just above the largest finite magnitude. -/
def infinityRank (f : Format) : Nat := ((1 <<< f.exponentBits) - 1) * f.lead

/-- The least positive magnitude is `2 ^ -unitExponent`. -/
def unitExponent (f : Format) : Nat := (1 <<< (f.exponentBits - 1)) + f.fractionBits - 2

/-- The units in one: `2 ^ unitExponent`. -/
def unitsPerOne (f : Format) : Nat := 1 <<< f.unitExponent

/-- The number of bits of an encoded number. -/
abbrev width (f : Format) : Nat := f.exponentBits + f.fractionBits + 1

/-- The number of doublings of the spacing at a rank. -/
def scale (f : Format) (rank : Nat) : Nat := rank / f.lead - 1

/-- A magnitude in steps of its own spacing. -/
def significand (f : Format) (rank : Nat) : Nat := rank - f.scale rank * f.lead

/-- A magnitude in units. -/
def units (f : Format) (rank : Nat) : Nat := f.significand rank <<< f.scale rank

theorem lead_pos (f : Format) : 0 < f.lead := by
  simp only [lead, Nat.one_shiftLeft]
  exact Nat.two_pow_pos _

theorem unitsPerOne_pos (f : Format) : 0 < f.unitsPerOne := by
  simp only [unitsPerOne, Nat.one_shiftLeft]
  exact Nat.two_pow_pos _

end Format

/-- A floating-point number: NaN, a signed infinity, or a signed finite magnitude. -/
inductive Binary (f : Format) where
  | nan
  | inf (negative : Bool)
  | finite (negative : Bool) (rank : Fin f.infinityRank)
deriving DecidableEq

/-- A number of the 32-bit format. -/
abbrev Single := Binary .single

/-- A number of the 64-bit format. -/
abbrev Double := Binary .double

namespace Binary

variable {f : Format}

/-- The exact value of the magnitude of a rank. -/
def magnitude (f : Format) (rank : Nat) : Rat := (f.units rank : Rat) / (f.unitsPerOne : Rat)

/-- A magnitude with a sign. -/
def signed (negative : Bool) (x : Rat) : Rat := if negative then -x else x

/-- The exact value of a finite number. -/
def toRat? : Binary f → Option Rat
  | nan | inf _ => none
  | finite negative rank => some (signed negative (magnitude f rank))

/-- Whether a number is neither an infinity nor NaN. -/
def isFinite : Binary f → Bool
  | finite .. => true
  | nan | inf _ => false

/-! ### Bit patterns -/

/-- The number a bit pattern encodes: sign first, then the rank. -/
def ofBits (bits : BitVec f.width) : Binary f :=
  let negative := bits.msb
  let rank := (bits.setWidth (f.exponentBits + f.fractionBits)).toNat
  if h : rank < f.infinityRank then finite negative ⟨rank, h⟩
  else if rank = f.infinityRank then inf negative
  else nan

/-- The pattern of a sign and a rank. -/
def pattern (f : Format) (negative : Bool) (rank : Nat) : BitVec f.width :=
  (BitVec.ofNat (f.exponentBits + f.fractionBits) rank).cons negative

/-- The bit pattern of a number; NaN has the sign clear and only the first fraction bit set. -/
def toBits : Binary f → BitVec f.width
  | nan => pattern f false (f.infinityRank + f.lead / 2)
  | inf negative => pattern f negative f.infinityRank
  | finite negative rank => pattern f negative rank

/-! ### Comparison -/

/-- The position of a number on the line of ranks; both zeros stand at zero and NaN nowhere. -/
def position? : Binary f → Option Int
  | nan => none
  | inf negative => some (if negative then -f.infinityRank else f.infinityRank)
  | finite negative rank => some (if negative then -(rank : Nat) else (rank : Nat))

/-- Numeric equality: NaN equals nothing and the two zeros are equal. -/
def equal (x y : Binary f) : Bool :=
  match x.position?, y.position? with
  | some a, some b => a == b
  | _, _ => false

/-- Numeric order: NaN is comparable to nothing. -/
def le (x y : Binary f) : Bool :=
  match x.position?, y.position? with
  | some a, some b => decide (a ≤ b)
  | _, _ => false

end Binary

end Paddock
