import Paddock.Proofs.Binary.Pattern

/-!
# Binary — the fields of a pattern

A pattern has three fields: a sign bit, an exponent and a fraction.  `fieldsValue?` is the exact
value that they denote.  An exponent field from one on stands for the exponent that is left when the
bias is taken off it, and the fraction follows a leading one.  An exponent field of zero stands for
the same exponent as one, and the fraction follows no leading one: these are zero and the subnormal
numbers.  A full exponent field denotes no value.

The rank of a pattern is its exponent and its fraction put together, so the scale of a rank is one
less than the exponent field, and its significand is the fraction with its leading bit
(`scale_succ_eq`, `significand_eq`).  So the number that a pattern encodes has the value of the
fields (`toRat?_ofBits`).
-/

namespace Paddock

/-! ### Ranks -/

namespace Format

variable {f : Format} {rank : Nat}

/-- What is taken off an exponent field. -/
def bias (f : Format) : Nat := 2 ^ (f.exponentBits - 1) - 1

theorem unitExponent_add_one (hf : 0 < f.fractionBits) :
    f.unitExponent + 1 = f.fractionBits + f.bias := by
  have hpos := Nat.two_pow_pos (f.exponentBits - 1)
  rw [unitExponent, bias, Nat.one_shiftLeft]
  omega

theorem scale_succ_eq (h : 0 < rank / f.lead) : f.scale rank + 1 = rank / f.lead := by
  unfold scale
  omega

/-- A significand is the fraction, from the second block on with its leading bit. -/
theorem significand_eq (f : Format) (rank : Nat) :
    f.significand rank = (if rank / f.lead = 0 then 0 else f.lead) + rank % f.lead := by
  have hsplit := Nat.div_add_mod' rank f.lead
  rw [significand]
  split_ifs with hzero
  · rw [scale, hzero]
    rw [hzero] at hsplit
    omega
  · have hscale := scale_succ_eq (Nat.pos_of_ne_zero hzero)
    rw [← hscale, Nat.succ_mul] at hsplit
    omega

end Format

namespace Binary

variable {f : Format}

/-- A magnitude by its significand and its scale. -/
theorem magnitude_eq_div_bias (hf : 0 < f.fractionBits) (rank : Nat) :
    magnitude f rank =
      (f.significand rank : Rat) / 2 ^ f.fractionBits * 2 ^ (f.scale rank + 1) / 2 ^ f.bias := by
  have hone : (2 : Rat) * 2 ^ f.unitExponent = 2 ^ f.fractionBits * 2 ^ f.bias := by
    rw [← pow_succ', ← pow_add, Format.unitExponent_add_one hf]
  rw [magnitude, Format.units_eq, Format.unitsPerOne_eq, div_mul_eq_mul_div, div_div, ← hone,
    pow_succ]
  push_cast
  field_simp

/-! ### Fields -/

/-- The exact value that sign, exponent and fraction denote. -/
def fieldsValue? (u : BitVec f.width) : Option Rat :=
  let exponent : Nat := (u.extractLsb' f.fractionBits f.exponentBits).toNat
  let fraction : Rat := (u.extractLsb' 0 f.fractionBits).toNat / 2 ^ f.fractionBits
  if exponent = 2 ^ f.exponentBits - 1 then none
  else if exponent = 0 then some (signed u.msb (fraction * 2 / 2 ^ f.bias))
  else some (signed u.msb ((1 + fraction) * 2 ^ exponent / 2 ^ f.bias))

/-- The exponent field is full from the rank of infinity on. -/
theorem div_eq_full_iff (u : BitVec f.width) :
    patternRank u / 2 ^ f.fractionBits = 2 ^ f.exponentBits - 1 ↔
      f.infinityRank ≤ patternRank u := by
  have hlt := (u.extractLsb' f.fractionBits f.exponentBits).isLt
  rw [toNat_exponentField] at hlt
  rw [infinityRank_eq, ← Nat.le_div_iff_mul_le (Nat.two_pow_pos f.fractionBits)]
  omega

/-- **A pattern encodes the number that its fields denote.** -/
theorem toRat?_ofBits (hf : 0 < f.fractionBits) (u : BitVec f.width) :
    (ofBits u).toRat? = fieldsValue? u := by
  simp only [fieldsValue?, toNat_exponentField, toNat_fractionField, div_eq_full_iff]
  by_cases hfull : f.infinityRank ≤ patternRank u
  · rw [if_pos hfull]
    rcases hfull.eq_or_lt with hinf | hnan
    · rw [ofBits_of_eq hinf.symm, toRat?]
    · rw [ofBits_of_gt hnan, toRat?]
  · rw [if_neg hfull, ofBits_of_lt (not_le.1 hfull), toRat?, magnitude_eq_div_bias hf,
      Format.significand_eq, Format.lead_eq]
    split_ifs with hzero
    · -- the least spacing is that of the first exponent
      rw [Format.scale, Format.lead_eq, hzero, Nat.zero_add, pow_one]
    · have hscale : f.scale (patternRank u) + 1 = patternRank u / f.lead := by
        refine Format.scale_succ_eq (Nat.pos_of_ne_zero ?_)
        rwa [Format.lead_eq]
      rw [hscale, Format.lead_eq, Nat.cast_add, add_div, Nat.cast_pow, Nat.cast_two,
        div_self (pow_ne_zero _ two_ne_zero)]

end Binary

end Paddock
