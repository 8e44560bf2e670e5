import Paddock.Proofs.Binary.Nearest
import Paddock.Proofs.Binary.Pattern
import Paddock.Text.Number

/-!
# Binary — numeric equality and the two zeros

Numeric equality is the equality of numbers except that NaN equals nothing and the two zeros are
equal (`equal_iff`).  The two zeros are told apart by their patterns and by their texts
(`eq_of_textWith_eq`), and no longer once one of them has been added to another number: a sum with a
zero is the other term, unless that is a negative zero (`finite_add_of_isZero`).  A whole number
rounds to no negative zero (`rank_pos_of_ofInt_eq`).
-/

namespace Paddock

theorem infinityRank_single_pos : 0 < Format.single.infinityRank := by decide

namespace Format

variable {f : Format}

theorem units_one (f : Format) : f.units 1 = 1 := by
  have hscale : f.scale 1 = 0 := by
    have := Nat.div_le_self 1 f.lead
    unfold scale
    omega
  rw [units_eq, significand, hscale, Nat.zero_mul, Nat.sub_zero, pow_zero, mul_one]

/-- A magnitude is rounded to no lesser one. -/
theorem le_nearestRank (hf : 0 < f.fractionBits) {rank : Nat} {t : Rat}
    (h : (f.units rank : Rat) ≤ t) : rank ≤ f.nearestRank t := by
  have hmono := nearestRank_mono hf (by exact_mod_cast Nat.zero_le _) h
  rwa [nearestRank_units] at hmono

end Format

namespace Binary

variable {f : Format} {x y z : Binary f} {negative : Bool} {rank : Fin f.infinityRank}

/-! ### Equality -/

/-- Whether a number is one of the two zeros. -/
def IsZero : Binary f → Prop
  | finite _ rank => rank.val = 0
  | nan | inf _ => False

theorem equal_eq_true_iff :
    x.equal y = true ↔ ∃ position, x.position? = some position ∧ y.position? = some position := by
  rw [equal]
  split
  · rename_i a b ha hb
    rw [ha, hb, beq_iff_eq]
    constructor
    · rintro rfl
      exact ⟨a, rfl, rfl⟩
    · rintro ⟨position, hx, hy⟩
      exact (Option.some.inj hx).trans (Option.some.inj hy).symm
  · rename_i hnone
    refine iff_of_false Bool.false_ne_true ?_
    rintro ⟨position, hx, hy⟩
    exact hnone _ _ hx hy

theorem exists_position?_eq (h : x ≠ nan) : ∃ position, x.position? = some position := by
  cases x with
  | nan => exact absurd rfl h
  | inf s => exact ⟨_, rfl⟩
  | finite s a => exact ⟨_, rfl⟩

theorem IsZero.position?_eq (h : x.IsZero) : x.position? = some 0 := by
  cases x with
  | nan => cases h
  | inf s => cases h
  | finite s a => rw [position?, show a.val = 0 from h, Nat.cast_zero, neg_zero, ite_self]

/-- Only the two zeros share a position. -/
theorem eq_or_isZero_of_position? (hf : 0 < f.infinityRank) {position : Int}
    (hx : x.position? = some position) (hy : y.position? = some position) :
    x = y ∨ x.IsZero ∧ y.IsZero := by
  cases x with
  | nan => cases hx
  | inf s =>
      cases y with
      | nan => cases hy
      | inf t => cases s <;> cases t <;> grind [position?]
      | finite t b => grind [position?]
  | finite s a =>
      cases y with
      | nan => cases hy
      | inf t => grind [position?]
      | finite t b => cases s <;> cases t <;> grind [position?, IsZero]

/-- **Numeric equality is equality, up to the sign of a zero, of what is not NaN.** -/
theorem equal_iff (hf : 0 < f.infinityRank) :
    x.equal y = true ↔ x ≠ nan ∧ (x = y ∨ x.IsZero ∧ y.IsZero) := by
  rw [equal_eq_true_iff]
  constructor
  · rintro ⟨position, hx, hy⟩
    refine ⟨?_, eq_or_isZero_of_position? hf hx hy⟩
    rintro rfl
    cases hx
  · rintro ⟨hnan, rfl | ⟨hx, hy⟩⟩
    · obtain ⟨position, hx⟩ := exists_position?_eq hnan
      exact ⟨position, hx, hx⟩
    · exact ⟨0, hx.position?_eq, hy.position?_eq⟩

theorem isZero_ofBits_iff (hf : 0 < f.infinityRank) {u : BitVec f.width} :
    (ofBits u).IsZero ↔ patternRank u = 0 := by
  rcases lt_trichotomy (patternRank u) f.infinityRank with hu | hu | hu
  · rw [ofBits_of_lt hu]
    exact Iff.rfl
  · rw [ofBits_of_eq hu]
    exact iff_of_false id (by omega)
  · rw [ofBits_of_gt hu]
    exact iff_of_false id (by omega)

/-- Whether two patterns are the same bits or both of a zero. -/
def SameUpToZeroSign (u v : BitVec f.width) : Prop := u = v ∨ patternRank u = 0 ∧ patternRank v = 0

/-- Numeric equality on patterns. -/
theorem equal_ofBits_iff (hf : 0 < f.infinityRank) {u v : BitVec f.width} :
    (ofBits u).equal (ofBits v) = true ↔ ¬IsNaNPattern u ∧ SameUpToZeroSign u v := by
  rw [equal_iff hf, isZero_ofBits_iff hf, isZero_ofBits_iff hf, ne_eq, ofBits_eq_nan_iff]
  refine and_congr_right fun hnan => or_congr_left ?_
  exact ofBits_inj (mt ofBits_eq_nan_iff.1 hnan)

theorem signText_inj : ∀ {s t : Bool}, signText s = signText t → s = t := by decide

/-- A text keeps the sign of a zero, so equal numbers with one text are the same. -/
theorem eq_of_textWith_eq (hf : 0 < f.infinityRank) {magnitudeText : Nat → List Char}
    (h : x.equal y = true) (htext : x.textWith magnitudeText = y.textWith magnitudeText) :
    x = y := by
  obtain ⟨-, heq | ⟨hx, hy⟩⟩ := (equal_iff hf).1 h
  · exact heq
  · cases x with
    | nan => cases hx
    | inf s => cases hx
    | finite s a =>
        cases y with
        | nan => cases hy
        | inf t => cases hy
        | finite t b =>
            obtain rfl : a = b := Fin.ext (hx.trans hy.symm)
            have hsign : signText s = signText t := by
              simpa [textWith, ← String.toList_inj] using htext
            rw [signText_inj hsign]

/-! ### Sums with a zero -/

theorem magnitude_pos {n : Nat} (h : 0 < n) : 0 < magnitude f n :=
  div_pos (by exact_mod_cast (Nat.zero_le _).trans_lt (f.units_strictMono h))
    (by exact_mod_cast f.unitsPerOne_pos)

theorem magnitude_zero (f : Format) : magnitude f 0 = 0 := by
  rw [magnitude, Format.units_zero, Nat.cast_zero, zero_div]

/-- A number other than the negative zero is what its exact value rounds to. -/
theorem ofRat_signed_magnitude (h : negative = true → 0 < rank.val) :
    ofRat (signed negative (magnitude f rank)) = finite negative rank := by
  cases negative with
  | false =>
      have hnonneg : ¬magnitude f rank < 0 := by
        rcases Nat.eq_zero_or_pos rank.val with hzero | hpos
        · rw [hzero, magnitude_zero]
          exact lt_irrefl 0
        · exact (magnitude_pos hpos).not_gt
      rw [signed, if_neg Bool.false_ne_true, ofRat, if_neg hnonneg, round_magnitude]
  | true =>
      have hneg : -magnitude f rank < 0 := neg_neg_of_pos (magnitude_pos (h rfl))
      rw [signed, if_pos rfl, ofRat, if_pos hneg, neg_neg, round_magnitude]

/-- **A zero adds nothing** to a number other than the negative zero. -/
theorem finite_add_of_isZero (h : negative = true → 0 < rank.val) (hz : z.IsZero) :
    (finite negative rank).add z = finite negative rank := by
  cases z with
  | nan => cases hz
  | inf t => cases hz
  | finite t b =>
      have hzero : signed t (magnitude f b) = 0 := by
        rw [show b.val = 0 from hz, magnitude_zero, signed, neg_zero, ite_self]
      rw [add, hzero, add_zero]
      split_ifs with hsum
      · -- an exact zero is the positive one, as the other term is
        have hnegative : negative = false := by
          by_contra htrue
          rw [Bool.not_eq_false] at htrue
          rw [htrue, signed, if_pos rfl, neg_eq_zero] at hsum
          exact (magnitude_pos (h htrue)).ne' hsum
        subst hnegative
        rw [signed, if_neg Bool.false_ne_true] at hsum
        rw [Bool.false_and, ← hsum, round_magnitude]
      · exact ofRat_signed_magnitude h

theorem ofRank_eq_finite {s : Bool} {n : Nat} (h : ofRank s n = finite negative rank) :
    s = negative ∧ n = rank := by
  rw [ofRank] at h
  split_ifs at h with hn
  obtain ⟨rfl, rfl⟩ := finite.inj h
  exact ⟨rfl, rfl⟩

/-- A whole number below zero is at least one unit below zero. -/
theorem rank_pos_of_ofInt_eq (hf : 0 < f.fractionBits) {n : Int}
    (h : ofInt n = finite true rank) : 0 < rank.val := by
  rw [ofInt, ofRat] at h
  split_ifs at h with hneg
  · rw [← (ofRank_eq_finite h).2]
    refine Format.le_nearestRank hf ?_
    have hn : (1 : Rat) ≤ -n := by
      have : n < 0 := by exact_mod_cast hneg
      exact_mod_cast (by omega : 1 ≤ -n)
    have hone : (1 : Rat) ≤ (f.unitsPerOne : Rat) := by exact_mod_cast f.unitsPerOne_pos
    rw [Format.units_one, Nat.cast_one]
    exact one_le_mul_of_one_le_of_one_le hn hone
  · cases (ofRank_eq_finite h).1

end Binary

end Paddock
