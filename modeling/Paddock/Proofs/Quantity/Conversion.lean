import Mathlib.Tactic.NormNum
import Paddock.Proofs.Binary.Error
import Paddock.Quantity

/-!
# Quantity — conversions of raw values

A raw value is a whole number of magnitude `2 ^ 31` at most.  It is a number of the 64-bit format, so
turning it into an amount of the base unit rounds once, and reading it back in its own unit rounds
once or twice more.  Each rounding is by a part `2 ^ -53`, so three of them move a raw value by far
less than a half (`abs_sub_lt_of_rounded`), and the amounts of two raw values by far less than the
unit between them (`lt_of_rounded`).

So nothing is lost: the amount tells the raw value, by its sign, by its order and as the whole
number nearest to the value read back (`Lossless`).  This holds of every unit of moderate size
(`IsSize`).  The two units of the raw values are given by their patterns: `0x40874d99652bd3c3` is the
number nearest to 745.6999, and `0x3fd1c71c71c71c72` the one nearest to 0.2777777777777778
(`UnitSize.horsepower_eq`, `UnitSize.kilometerPerHour_eq`).
-/

namespace Paddock

open Binary

/-! ### The 64-bit format -/

theorem Format.admits_double : Format.double.Admits 1000 := ⟨by decide, by decide⟩

theorem Format.roundoff_double : Format.double.roundoff = 1 / 2 ^ 53 := by
  rw [roundoff, lead_eq]
  norm_num

/-- Three roundings in a row grow to less than `2 ^ -51`. -/
theorem Format.growth_lt {d : Nat} (hd : d ≤ 3) :
    (1 + Format.double.roundoff) ^ d < 1 + 1 / 2 ^ 51 := by
  have hgrowth : (1 + Format.double.roundoff) ^ d ≤ (1 + Format.double.roundoff) ^ 3 :=
    pow_le_pow_right₀ (le_add_of_nonneg_right (roundoff_pos _).le) hd
  refine hgrowth.trans_lt ?_
  rw [roundoff_double]
  norm_num

section

variable {m n : Int32} {c a b r : Rat}

theorem toInt_eq_zero_iff : (n.toInt : Rat) = 0 ↔ n = 0 := by
  rw [Int.cast_eq_zero, ← Int32.toInt_zero, Int32.toInt_inj]

theorem toInt_neg_iff : n.toInt < 0 ↔ n < 0 := by
  rw [Int32.lt_iff_toInt_lt, Int32.toInt_zero]

theorem moderate_toInt (n : Int32) : Moderate 31 (n.toInt : Rat) := by
  by_cases hzero : n.toInt = 0
  · exact .inl (by rw [hzero, Int.cast_zero])
  · have hone : (1 : Rat) ≤ |(n.toInt : Rat)| := by exact_mod_cast Int.one_le_abs hzero
    refine .inr ⟨?_, abs_toInt_le n⟩
    linarith

/-- A raw value is a number of the 64-bit format. -/
theorem denotes_toInt (n : Int32) :
    Denotes (Binary.ofInt n.toInt : Double) (decide (n.toInt < 0)) n.toInt := by
  have habs : n.toInt.natAbs ≤ 2 ^ 31 := by
    have := abs_toInt_le n
    rw [← Int.cast_abs, Int.abs_eq_natAbs] at this
    exact_mod_cast this
  exact denotes_ofInt (by decide) (habs.trans (by decide))

/-! ### Errors of a few roundings -/

theorem Rounded.sign_eq_double {d : Nat} {v w : Rat} (h : Rounded .double d v w) (hd : d ≤ 3) :
    SignType.sign w = SignType.sign v :=
  h.sign_eq ((Format.growth_lt hd).trans (by norm_num))

theorem Rounded.eq_zero_iff_double {d : Nat} {v w : Rat} (h : Rounded .double d v w) (hd : d ≤ 3) :
    w = 0 ↔ v = 0 := by
  rw [← sign_eq_zero_iff, h.sign_eq_double hd, sign_eq_zero_iff]

theorem Rounded.abs_sub_le_double {d : Nat} {v w : Rat} (h : Rounded .double d v w) (hd : d ≤ 3) :
    |w - v| ≤ 1 / 2 ^ 51 * |v| := by
  have hgrowth := Format.growth_lt hd
  unfold Rounded at h
  refine h.trans (mul_le_mul_of_nonneg_right ?_ (abs_nonneg v))
  linarith

/-- Roundings move the amounts of two raw values by less than the unit between them. -/
theorem lt_of_rounded (hc : 0 < c) (h : m < n) (ha : Rounded .double 1 (m.toInt * c) a)
    (hb : Rounded .double 1 (n.toInt * c) b) : a < b := by
  have hstep : (m.toInt : Rat) + 1 ≤ n.toInt := by exact_mod_cast Int32.lt_iff_toInt_lt.1 h
  have hgap : (m.toInt : Rat) * c + c ≤ n.toInt * c := by
    have := mul_le_mul_of_nonneg_right hstep hc.le
    linarith
  have herror (k : Int32) : 1 / 2 ^ 53 * |(k.toInt : Rat) * c| ≤ 1 / 2 ^ 22 * c := by
    have := mul_le_mul_of_nonneg_right (abs_toInt_le k) hc.le
    rw [abs_mul, abs_of_pos hc]
    linarith
  rw [Rounded.one_iff, Format.roundoff_double] at ha hb
  have hupper := (le_abs_self _).trans (ha.trans (herror m))
  have hlower := (neg_le_abs _).trans (hb.trans (herror n))
  linarith

/-- Three roundings move a raw value by less than a half, so no other whole number is as near. -/
theorem abs_sub_lt_of_rounded (h : Rounded .double 3 n.toInt r) {k : Int} (hk : k ≠ n.toInt) :
    |r - n.toInt| < |r - k| := by
  have hhalf : |r - n.toInt| < 1 / 2 := by
    calc |r - n.toInt| ≤ 1 / 2 ^ 51 * |(n.toInt : Rat)| := h.abs_sub_le_double le_rfl
      _ ≤ 1 / 2 ^ 51 * 2 ^ 31 := mul_le_mul_of_nonneg_left (abs_toInt_le n) (by norm_num)
      _ < 1 / 2 := by norm_num
  have hapart : (1 : Rat) ≤ |(k : Rat) - n.toInt| := by
    exact_mod_cast Int.one_le_abs (sub_ne_zero.2 hk)
  have hsum := abs_sub_le (k : Rat) r n.toInt
  rw [abs_sub_comm (k : Rat) r] at hsum
  linarith

end

/-! ### Lossless conversions -/

/-- A conversion of raw values keeps everything: the amounts are finite with the signs of the raw
values, they increase strictly, and the whole number nearest to what is read back is the raw
value. -/
structure Lossless (base back : Int32 → Double) : Prop where
  sign_eq : ∀ n, ∃ b, (base n).toRat? = some b ∧
    SignType.sign b = SignType.sign (n.toInt : Rat) ∧ (base n).toBits.msb = decide (n < 0)
  lt : ∀ m n, m < n → ∃ a b, (base m).toRat? = some a ∧ (base n).toRat? = some b ∧ a < b
  nearest : ∀ n, ∃ r, (back n).toRat? = some r ∧
    ∀ k : Int, k ≠ n.toInt → |r - n.toInt| < |r - k|

/-- Few roundings on the way to the amount and back lose nothing. -/
theorem lossless_of_rounded {base back : Int32 → Double} {c : Rat} (hc : 0 < c)
    (hbase : ∀ n, ∃ b, Denotes (base n) (decide (n.toInt < 0)) b ∧
      Rounded .double 1 (n.toInt * c) b)
    (hback : ∀ n, ∃ r, (back n).toRat? = some r ∧ Rounded .double 3 n.toInt r) :
    Lossless base back where
  sign_eq n := by
    obtain ⟨b, hdenotes, hrounded⟩ := hbase n
    refine ⟨b, hdenotes.toRat?_eq, ?_, ?_⟩
    · rw [hrounded.sign_eq_double (by decide), sign_mul, sign_pos hc, mul_one]
    · rw [hdenotes.msb_toBits, decide_eq_decide, toInt_neg_iff]
  lt m n h := by
    obtain ⟨a, hm, ha⟩ := hbase m
    obtain ⟨b, hn, hb⟩ := hbase n
    exact ⟨a, b, hm.toRat?_eq, hn.toRat?_eq, lt_of_rounded hc h ha hb⟩
  nearest n := by
    obtain ⟨r, hr, hrounded⟩ := hback n
    exact ⟨r, hr, fun k hk => abs_sub_lt_of_rounded hrounded hk⟩

/-! ### Units -/

/-- A number of the 64-bit format is the size of a unit, with its exact value. -/
structure IsSize (unit : Double) (c : Rat) : Prop where
  denotes : Denotes unit false c
  pos : 0 < c
  moderate : Moderate 11 c

theorem exists_isSize_ofRat {q : Rat} (hpos : 0 < q) (hq : Moderate 10 q) :
    ∃ c, IsSize (Binary.ofRat q) c := by
  obtain ⟨c, hdenotes, hrounded⟩ :=
    exists_denotes_ofRat Format.admits_double (hq.mono (by decide))
  have hsign := hrounded.sign_eq_double (by decide)
  rw [decide_eq_false hpos.not_gt] at hdenotes
  rw [sign_pos hpos, sign_eq_one_iff] at hsign
  exact ⟨c, hdenotes, hsign, hrounded.moderate hq⟩

/-- The pattern of 745.6999. -/
theorem UnitSize.horsepower_eq : horsepower = .ofBits 0x40874d99652bd3c3#64 := by decide +kernel

/-- The pattern of 0.2777777777777778. -/
theorem UnitSize.kilometerPerHour_eq : kilometerPerHour = .ofBits 0x3fd1c71c71c71c72#64 := by
  decide +kernel

theorem exists_isSize_horsepower : ∃ c, IsSize UnitSize.horsepower c :=
  exists_isSize_ofRat (by norm_num) (.inr (by norm_num))

theorem exists_isSize_kilometerPerHour : ∃ c, IsSize UnitSize.kilometerPerHour c :=
  exists_isSize_ofRat (by norm_num) (.inr (by norm_num))

namespace IsSize

variable {unit : Double} {c : Rat}

/-- The amount of a raw value is rounded once. -/
theorem exists_amount (h : IsSize unit c) (n : Int32) :
    ∃ b, Denotes ((Binary.ofInt n.toInt).mul unit) (decide (n.toInt < 0)) b ∧
      Rounded .double 1 (n.toInt * c) b := by
  have hmoderate := ((moderate_toInt n).mul h.moderate).mono (l := 1000) (by decide)
  have hamount := (denotes_toInt n).mul Format.admits_double h.denotes hmoderate
  rwa [Bool.xor_false] at hamount

/-- Dividing an amount by a number rounds once more. -/
theorem exists_ratio (h : IsSize unit c) (n : Int32) {y : Double} {t : Bool} {d : Rat}
    (hy : Denotes y t d) (hd : d ≠ 0) (hmoderate : Moderate 31 d) :
    ∃ r, Denotes (((Binary.ofInt n.toInt).mul unit).div y) (decide (n.toInt < 0) ^^ t) r ∧
      Rounded .double 2 (n.toInt * c / d) r := by
  obtain ⟨b, hb, hamount⟩ := h.exists_amount n
  have hsize := (hamount.moderate ((moderate_toInt n).mul h.moderate)).div hmoderate
  obtain ⟨r, hr, hquotient⟩ := hb.div Format.admits_double hy hd (hsize.mono (by decide))
  have hexact := hamount.mul_right d⁻¹
  rw [← div_eq_mul_inv, ← div_eq_mul_inv] at hexact
  have htwo := hexact.trans hquotient
  exact ⟨r, hr, htwo⟩

/-- Reading an amount by a division gives the raw value up to two roundings. -/
theorem exists_quotient (h : IsSize unit c) (n : Int32) :
    ∃ r, (((Binary.ofInt n.toInt).mul unit).div unit).toRat? = some r ∧
      Rounded .double 2 n.toInt r := by
  obtain ⟨r, hr, htwo⟩ := h.exists_ratio n h.denotes h.pos.ne' (h.moderate.mono (by decide))
  rw [mul_div_cancel_right₀ _ h.pos.ne'] at htwo
  exact ⟨r, hr.toRat?_eq, htwo⟩

/-- Reading an amount by a multiplication with the reciprocal rounds twice more. -/
theorem exists_product (h : IsSize unit c) (n : Int32) :
    ∃ r, (((Binary.ofInt n.toInt).mul unit).mul (Double.one.div unit)).toRat? = some r ∧
      Rounded .double 3 n.toInt r := by
  obtain ⟨b, hb, hamount⟩ := h.exists_amount n
  have hone : Denotes Double.one false 1 := by
    have := denotes_toInt 1
    exact_mod_cast this
  have hmoderate : Moderate 0 1 := .inr (by norm_num)
  obtain ⟨q, hq, hreciprocal⟩ := hone.div Format.admits_double h.denotes h.pos.ne'
    ((hmoderate.div h.moderate).mono (by decide))
  have hsize := (hamount.moderate ((moderate_toInt n).mul h.moderate)).mul
    (hreciprocal.moderate (hmoderate.div h.moderate))
  obtain ⟨r, hr, hproduct⟩ := hb.mul Format.admits_double hq (hsize.mono (by decide))
  -- the amount, the reciprocal and the product of the two are rounded
  have hexact := hamount.mul_right (1 / c)
  rw [one_div, mul_inv_cancel_right₀ h.pos.ne', ← one_div] at hexact
  have hthree := (hexact.trans (hreciprocal.mul_left b)).trans hproduct
  exact ⟨r, hr.toRat?_eq, hthree⟩

end IsSize

/-- **Conversions of raw values lose nothing.**  The amounts of powers and of velocities are finite
with the signs of the raw values and increase strictly.  The whole numbers nearest to the powers
divided by 745.6999, and to the velocities times the reciprocal of 0.2777777777777778, are the raw
values, and so powers and velocities are read in their raw units.  A mass is exactly its raw
value. -/
theorem conversions_lossless :
    Lossless (fun n => (Power.ofHorsepower n).base)
        (fun n => (Power.ofHorsepower n).base.div (.ofBits 0x40874d99652bd3c3#64)) ∧
      Lossless (fun n => (Velocity.ofKilometersPerHour n).base)
        (fun n => (Velocity.ofKilometersPerHour n).base.mul
          (Double.one.div (.ofBits 0x3fd1c71c71c71c72#64))) ∧
      (∀ p : Power, p.horsepower = p.base.div (.ofBits 0x40874d99652bd3c3#64)) ∧
      (∀ v : Velocity, v.kilometerPerHour =
        v.base.mul (Double.one.div (.ofBits 0x3fd1c71c71c71c72#64))) ∧
      ∀ n : Int32, (Mass.ofKilograms n).base.toRat? = some (n.toInt : Rat) := by
  rw [← UnitSize.horsepower_eq, ← UnitSize.kilometerPerHour_eq]
  obtain ⟨c, hc⟩ := exists_isSize_horsepower
  obtain ⟨d, hd⟩ := exists_isSize_kilometerPerHour
  refine ⟨lossless_of_rounded hc.pos hc.exists_amount fun n => ?_,
    lossless_of_rounded hd.pos hd.exists_amount hd.exists_product, fun _ => rfl, fun _ => rfl,
    fun n => ?_⟩
  · obtain ⟨r, hr, hrounded⟩ := hc.exists_quotient n
    exact ⟨r, hr, hrounded.mono (by decide)⟩
  · exact (denotes_toInt n).toRat?_eq

end Paddock
