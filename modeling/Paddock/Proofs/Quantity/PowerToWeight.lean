import Paddock.Proofs.Quantity.Conversion

/-!
# Quantity — power to weight

The ratio of a power to a mass takes two roundings: the power is the product of a raw value and the
size of its unit, and the ratio is a quotient.  A mass is exactly its raw value.  So unless the mass
is zero the ratio is finite, differs from the exact one by a part `2 ^ -51` of it at most, and has
the sign bit of a product of the two raw values, also where it is a zero (`IsRatio.of_rounded`).  A
mass of zero is the positive zero, so the ratio is then NaN or the infinity with the sign of the
power (`IsRatio.of_mass_zero`).

The two cases exclude each other, and so do NaN, the infinities and the zeros within them: what the
ratio is tells which of the raw values are zero, and on which side of zero they are (`IsRatio`).
-/

namespace Paddock

open Binary

/-! ### The negative zero -/

/-- The negative zero of the 64-bit format. -/
def Double.negativeZero : Double := finite true ⟨0, by decide⟩

example : Double.negativeZero.toBits = 0x8000000000000000#64 := by decide

theorem Binary.Denotes.eq_negativeZero_iff {x : Double} {negative : Bool} {v : Rat}
    (h : Denotes x negative v) : x = Double.negativeZero ↔ v = 0 ∧ negative = true := by
  obtain ⟨rank, rfl, rfl⟩ := h
  rw [signed_magnitude_eq_zero_iff, Double.negativeZero, finite.injEq, Fin.ext_iff, and_comm]

/-! ### Ratios of raw values -/

/-- What the ratio of a raw power, in units of the size `c`, to a raw mass has to be. -/
structure IsRatio (c : Rat) (power mass : Int32) (ratio : Double) : Prop where
  nan_iff : ratio = nan ↔ power = 0 ∧ mass = 0
  inf_iff : ∀ negative, ratio = inf negative ↔
    mass = 0 ∧ power ≠ 0 ∧ negative = decide (power < 0)
  negativeZero_iff : ratio = Double.negativeZero ↔ power = 0 ∧ mass < 0
  accurate : mass ≠ 0 → ∃ v, ratio.toRat? = some v ∧
    SignType.sign v = SignType.sign ((power.toInt : Rat) * mass.toInt) ∧
    |v - power.toInt * c / mass.toInt| ≤ 1 / 2 ^ 51 * |power.toInt * c / mass.toInt|

namespace IsRatio

variable {c v : Rat} {power mass : Int32} {ratio : Double}

/-- A ratio to a mass of zero. -/
theorem of_mass_zero (h : ratio = if power = 0 then nan else inf (decide (power < 0))) :
    IsRatio c power 0 ratio := by
  by_cases hpower : power = 0
  · rw [if_pos hpower] at h
    subst h hpower
    exact ⟨by simp, by simp, by simp [Double.negativeZero], fun hmass => absurd rfl hmass⟩
  · rw [if_neg hpower] at h
    subst h
    refine ⟨by simp [hpower], fun negative => ?_, by simp [hpower, Double.negativeZero],
      fun hmass => absurd rfl hmass⟩
    simp [hpower, eq_comm]

/-- Two roundings leave the sign of the exact ratio, which is that of the product. -/
theorem sign_eq_of_rounded (hc : 0 < c) (hmass : mass ≠ 0)
    (h : Rounded .double 2 (power.toInt * c / mass.toInt) v) :
    SignType.sign v = SignType.sign ((power.toInt : Rat) * mass.toInt) := by
  have hmass' : (mass.toInt : Rat) ≠ 0 := mt toInt_eq_zero_iff.1 hmass
  have hpos : 0 < c / (mass.toInt : Rat) ^ 2 := div_pos hc (by positivity)
  have hexact : (power.toInt : Rat) * c / mass.toInt =
      power.toInt * mass.toInt * (c / (mass.toInt : Rat) ^ 2) := by
    field_simp
  rw [h.sign_eq_double (by decide), hexact, sign_mul, sign_pos hpos, mul_one]

/-- A ratio to another mass, after two roundings. -/
theorem of_rounded (hc : 0 < c) (hmass : mass ≠ 0)
    (hdenotes : Denotes ratio (decide (power.toInt < 0) ^^ decide (mass.toInt < 0)) v)
    (hrounded : Rounded .double 2 (power.toInt * c / mass.toInt) v) :
    IsRatio c power mass ratio := by
  have hzero : v = 0 ↔ power = 0 := by
    rw [hrounded.eq_zero_iff_double (by decide), div_eq_zero_iff, toInt_eq_zero_iff,
      or_iff_left hmass, mul_eq_zero, or_iff_left hc.ne', toInt_eq_zero_iff]
  refine ⟨?_, ?_, ?_, fun _ => ⟨v, hdenotes.toRat?_eq, sign_eq_of_rounded hc hmass hrounded,
    hrounded.abs_sub_le_double (by decide)⟩⟩
  · obtain ⟨rank, rfl, -⟩ := hdenotes
    simp [hmass]
  · obtain ⟨rank, rfl, -⟩ := hdenotes
    simp [hmass]
  · -- a power of zero has no sign bit, so that of the ratio is the one of the mass
    rw [hdenotes.eq_negativeZero_iff, hzero]
    refine and_congr_right fun hpower => ?_
    rw [hpower, Int32.toInt_zero, decide_eq_false (lt_irrefl _), Bool.false_xor, decide_eq_true_iff,
      toInt_neg_iff]

end IsRatio

namespace IsSize

variable {unit : Double} {c : Rat}

/-- An amount over the positive zero. -/
theorem div_zero (h : IsSize unit c) (n : Int32) :
    ((Binary.ofInt n.toInt).mul unit).div (Binary.ofInt (0 : Int32).toInt) =
      if n = 0 then nan else inf (decide (n < 0)) := by
  obtain ⟨b, hb, hamount⟩ := h.exists_amount n
  have hzero : b = 0 ↔ n = 0 := by
    rw [hamount.eq_zero_iff_double (by decide), mul_eq_zero, or_iff_left h.pos.ne',
      toInt_eq_zero_iff]
  have hmass : Denotes (Binary.ofInt (0 : Int32).toInt : Double) false 0 := by
    have := denotes_toInt 0
    exact_mod_cast this
  rw [hb.div_zero hmass]
  simp only [hzero, toInt_neg_iff, Bool.xor_false]

/-- An amount over a raw mass is the ratio of the raw values. -/
theorem isRatio (h : IsSize unit c) (power mass : Int32) :
    IsRatio c power mass
      (((Binary.ofInt power.toInt).mul unit).div (Binary.ofInt mass.toInt)) := by
  by_cases hmass : mass = 0
  · rw [hmass]
    exact .of_mass_zero (h.div_zero power)
  · obtain ⟨v, hdenotes, hrounded⟩ := h.exists_ratio power (denotes_toInt mass)
      (mt toInt_eq_zero_iff.1 hmass) (moderate_toInt mass)
    exact .of_rounded h.pos hmass hdenotes hrounded

end IsSize

/-- **Power to weight.**  With 745.6999 watts in a horsepower, the ratio is NaN, an infinity or the
negative zero exactly where the two raw values make it so, and with a weight other than zero it is as
near to the exact ratio as two roundings leave it.  No other field of the car has a part in it. -/
theorem Car.powerToWeight_classified :
    ∃ c, (ofBits 0x40874d99652bd3c3#64 : Double).toRat? = some c ∧
      ∀ car : Car, IsRatio c car.engine.horsepower car.weight car.powerToWeight.base ∧
        ∀ (maxSpeed : Int32) (torque : Single) (color : String),
          Car.powerToWeight ⟨maxSpeed, car.weight, ⟨car.engine.horsepower, torque⟩, color⟩ =
            car.powerToWeight := by
  obtain ⟨c, hc⟩ := exists_isSize_horsepower
  rw [← UnitSize.horsepower_eq]
  refine ⟨c, hc.denotes.toRat?_eq, fun car => ⟨?_, fun _ _ _ => rfl⟩⟩
  exact hc.isRatio car.engine.horsepower car.weight

end Paddock
