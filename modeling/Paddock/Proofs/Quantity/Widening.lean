import Paddock.Proofs.Binary.Fields
import Paddock.Proofs.Binary.Order
import Paddock.Quantity

/-!
# Quantity — torques are widened exactly

A raw torque is a number of the 32-bit format, and its quantity is the number of the 64-bit format
nearest to it.  Every number of the narrow format is one of the wide format, so nothing is rounded:
the value and the sign stay (`toRat?_convert`, `msb_toBits_convert`).  Narrowing rounds to the nearest
number of the narrow format (`isNearestTo_convert`), and that is the number that was widened
(`convert_convert`).

On bit patterns this is a change of layout.  The exponent has another bias, and a subnormal number
of the narrow format is a normal one of the wide format, with its leading bit taken out of the
fraction.  `IsExactWidening` says what such a change has to keep, in terms of the fields of the
patterns.
-/

namespace Paddock

/-! ### Widening and narrowing -/

namespace Binary

/-- Widening keeps the value. -/
theorem toRat?_convert (x : Single) : (x.convert : Double).toRat? = x.toRat? := by
  cases x with
  | nan => rfl
  | inf negative => rfl
  | finite negative rank =>
      obtain ⟨wide, hwide, hmag⟩ := convert_finite negative rank
      rw [hwide, toRat?, toRat?, hmag]

/-- Widening keeps the sign, also that of a zero. -/
theorem msb_toBits_convert (x : Single) : (x.convert : Double).toBits.msb = x.toBits.msb := by
  cases x with
  | nan => exact (msb_pattern false _).trans (msb_pattern false _).symm
  | inf negative => exact (msb_pattern negative _).trans (msb_pattern negative _).symm
  | finite negative rank =>
      obtain ⟨wide, hwide, -⟩ := convert_finite negative rank
      rw [hwide, toBits, toBits, msb_pattern, msb_pattern]

theorem convert_eq_nan_iff (x : Single) : (x.convert : Double) = nan ↔ x = nan := by
  cases x with
  | nan => exact iff_of_true rfl rfl
  | inf negative => simp [convert]
  | finite negative rank =>
      obtain ⟨wide, hwide, -⟩ := convert_finite negative rank
      simp [hwide]

/-- Narrowing is to the nearest number. -/
theorem isNearestTo_convert {x : Double} {v : Rat} (hx : x.toRat? = some v)
    (h : (x.convert : Single).isFinite = true) : (x.convert : Single).IsNearestTo v := by
  obtain ⟨negative, rank, rfl, rfl⟩ := toRat?_eq_some_iff.1 hx
  exact isNearestTo_round (by decide) (magnitude_nonneg .double rank) h

/-- **Narrowing undoes widening.** -/
theorem convert_convert (x : Single) : (x.convert : Double).convert = x := by
  cases x with
  | nan => rfl
  | inf negative => rfl
  | finite negative rank =>
      obtain ⟨wide, hwide, hmag⟩ := convert_finite negative rank
      rw [hwide, convert, hmag]
      exact round_magnitude negative rank

theorem convert_injective : Function.Injective (convert : Single → Double) :=
  Function.LeftInverse.injective convert_convert

end Binary

open Binary

/-! ### Patterns -/

/-- The patterns of the 32-bit format are taken to patterns of the 64-bit format exactly: with the
value of the fields, with the sign, infinities to infinities and only NaN to NaN.  So no two numbers
become one, the number that was widened is the nearest one of the 32-bit format, and narrowing gives
back its bits. -/
structure IsExactWidening (widen : BitVec Format.single.width → BitVec Format.double.width) :
    Prop where
  value_eq : ∀ t, fieldsValue? (widen t) = fieldsValue? t
  sign_eq : ∀ t, ¬IsNaNPattern t → (widen t).msb = t.msb
  zero_eq : widen 0#32 = 0#64 ∧ widen 0x80000000#32 = 0x8000000000000000#64
  infinity_eq : widen 0x7f800000#32 = 0x7ff0000000000000#64 ∧
    widen 0xff800000#32 = 0xfff0000000000000#64
  nan_iff : ∀ t, IsNaNPattern (widen t) ↔ IsNaNPattern t
  injective : ∀ t u, ¬IsNaNPattern t → ¬IsNaNPattern u → widen t = widen u → t = u
  nearest : ∀ t v, fieldsValue? (widen t) = some v → (ofBits t : Single).IsNearestTo v
  narrow : ∀ t, Alike ((ofBits (widen t) : Double).convert : Single).toBits t

/-- The bits of the quantity are those of the widened number. -/
theorem Torque.ofBits_toBits_base (x : Single) :
    ofBits (Torque.ofNewtonMeters x).base.toBits = (x.convert : Double) :=
  ofBits_toBits (by decide) _

/-- **The torque is widened exactly.** -/
theorem Torque.ofNewtonMeters_exact :
    IsExactWidening fun t => (Torque.ofNewtonMeters (ofBits t)).base.toBits where
  value_eq t := by
    rw [← toRat?_ofBits (by decide), ← toRat?_ofBits (by decide), ofBits_toBits_base,
      toRat?_convert]
  sign_eq t ht := by
    rw [ofNewtonMeters, msb_toBits_convert, toBits_ofBits (by decide) ht]
  zero_eq := by decide +kernel
  infinity_eq := by decide
  nan_iff t := by
    rw [← ofBits_eq_nan_iff, ← ofBits_eq_nan_iff, ofBits_toBits_base, convert_eq_nan_iff]
  injective t u ht _ h := by
    have hwide : ((ofBits t : Single).convert : Double) = (ofBits u : Single).convert := by
      rw [← ofBits_toBits_base, ← ofBits_toBits_base, h]
    exact (ofBits_inj (mt ofBits_eq_nan_iff.1 ht)).1 (convert_injective hwide)
  nearest t v hv := by
    rw [← toRat?_ofBits (by decide), ofBits_toBits_base] at hv
    have hfinite : (ofBits t : Single).isFinite = true := by
      rw [toRat?_convert] at hv
      exact isFinite_of_toRat? hv
    rw [← convert_convert (ofBits t)] at hfinite ⊢
    exact isNearestTo_convert hv hfinite
  narrow t := by
    rw [← ofBits_eq_iff, ofBits_toBits (by decide), ofBits_toBits_base, convert_convert]

/-- The least subnormal number of the 32-bit format is a normal one of the 64-bit format. -/
example : (Torque.ofNewtonMeters (ofBits 1#32)).base.toBits = 0x36a0000000000000#64 := by
  decide +kernel

end Paddock
