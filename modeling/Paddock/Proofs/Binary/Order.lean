import Paddock.Proofs.Binary.Zero

/-!
# Binary — nearest numbers and their order

`IsNearestTo x y` says that the finite number `y` is the correctly rounded `x`: among all finite
numbers none is nearer, and where one with another value is as near, the rank of `y` is even.  The
rank is the pattern without the sign, so an even rank is an even significand.

* A value that rounds to a finite number rounds to the nearest one (`isNearestTo_ofRat`), and a
  finite sum is the number nearest to the exact sum (`isNearestTo_add`).
* Rounding keeps the order of exact values (`toRat?_ofRat_mono`): were the results in reverse order,
  both values would be in the middle between them, and one value rounds to one number.
* The order of numbers is the order of their values, with the infinities at the ends (`le_iff`).
* Whole numbers of few enough digits are not rounded (`exists_ofInt_eq_finite`).
-/

namespace Paddock.Binary

variable {f : Format} {x y : Binary f} {v w : Rat} {negative : Bool}

/-! ### Signs and values -/

theorem signed_signed (negative : Bool) (v : Rat) : signed negative (signed negative v) = v := by
  cases negative with
  | false => rfl
  | true => exact neg_neg v

theorem signed_zero (negative : Bool) : signed negative 0 = 0 := by
  rw [signed, neg_zero, ite_self]

/-- A sign changes no distance. -/
theorem abs_signed_sub_signed (negative : Bool) (v w : Rat) :
    |signed negative v - signed negative w| = |v - w| := by
  cases negative with
  | false => rfl
  | true =>
      show |-v - -w| = |v - w|
      rw [neg_sub_neg, abs_sub_comm]

theorem magnitude_strictMono (f : Format) : StrictMono (magnitude f) := by
  intro a b h
  have hone : (0 : Rat) < (f.unitsPerOne : Rat) := by exact_mod_cast f.unitsPerOne_pos
  exact (div_lt_div_iff_of_pos_right hone).2 (f.units_cast_strictMono h)

theorem toRat?_eq_some_iff :
    x.toRat? = some v ↔ ∃ negative rank, x = finite negative rank ∧
      v = signed negative (magnitude f rank) := by
  constructor
  · intro h
    cases x with
    | nan => cases h
    | inf s => cases h
    | finite s a => exact ⟨s, a, rfl, (Option.some.inj h).symm⟩
  · rintro ⟨s, a, rfl, rfl⟩
    rfl

theorem exists_toRat?_of_isFinite (h : x.isFinite = true) : ∃ v, x.toRat? = some v := by
  cases x with
  | nan => cases h
  | inf s => cases h
  | finite s a => exact ⟨_, rfl⟩

theorem isFinite_of_toRat? (h : x.toRat? = some v) : x.isFinite = true := by
  obtain ⟨s, a, rfl, -⟩ := toRat?_eq_some_iff.1 h
  rfl

/-- Seen from the side of one sign, a finite number is a magnitude or below zero. -/
theorem exists_magnitude_or_neg (h : x.toRat? = some (signed negative v)) :
    (∃ rank, v = magnitude f rank) ∨ v < 0 := by
  obtain ⟨s, a, -, hv⟩ := toRat?_eq_some_iff.1 h
  have hv' : v = signed negative (signed s (magnitude f a)) := by rw [← hv, signed_signed]
  by_cases hs : s = negative
  · subst hs
    exact .inl ⟨a, by rw [hv', signed_signed]⟩
  · have hneg : v = -magnitude f a := by
      rw [hv']
      cases s <;> cases negative <;> simp_all [signed]
    rcases Nat.eq_zero_or_pos a.val with hzero | hpos
    · refine .inl ⟨0, ?_⟩
      rw [hneg, hzero, magnitude_zero, neg_zero]
    · exact .inr (hneg ▸ neg_neg_of_pos (magnitude_pos hpos))

/-! ### The nearest number -/

/-- A number is finite and the nearest to an exact value: none is nearer, and where one with another
value is as near, the rank is even. -/
def IsNearestTo (v : Rat) : Binary f → Prop
  | nan | inf _ => False
  | finite negative rank =>
    ∀ (other : Binary f) (w : Rat), other.toRat? = some w →
      w ≠ signed negative (magnitude f rank) →
      |v - signed negative (magnitude f rank)| < |v - w| ∨
        |v - signed negative (magnitude f rank)| = |v - w| ∧ Even rank.val

/-- No finite number is nearer than the nearest one. -/
theorem IsNearestTo.abs_le {a b : Rat} (h : x.IsNearestTo v) (ha : x.toRat? = some a)
    (hb : y.toRat? = some b) : |v - a| ≤ |v - b| := by
  obtain ⟨s, rank, rfl, rfl⟩ := toRat?_eq_some_iff.1 ha
  by_cases hne : b = signed s (magnitude f rank)
  · rw [hne]
  · rcases h y b hb hne with hlt | ⟨heq, -⟩
    · exact hlt.le
    · exact heq.le

/-- The nearest magnitude, with a sign, is the nearest number: those on the other side of zero are
farther away than zero. -/
theorem isNearestTo_finite (rank : Fin f.infinityRank) (hv : 0 ≤ v)
    (h : IsNearest (magnitude f) v rank) (negative : Bool) :
    (finite negative rank).IsNearestTo (signed negative v) := by
  intro other w hw hne
  obtain ⟨u, rfl⟩ : ∃ u, w = signed negative u := ⟨_, (signed_signed negative w).symm⟩
  rw [abs_signed_sub_signed, abs_signed_sub_signed]
  rcases exists_magnitude_or_neg hw with ⟨a, rfl⟩ | hneg
  · refine h a ?_
    rintro rfl
    exact hne rfl
  · left
    calc |v - magnitude f rank| ≤ |v - magnitude f 0| := h.abs_le 0
      _ = v := by rw [magnitude_zero, sub_zero, abs_of_nonneg hv]
      _ < v - u := by linarith
      _ ≤ |v - u| := le_abs_self _

theorem isNearestTo_round (hf : 0 < f.fractionBits) (hv : 0 ≤ v)
    (h : (round negative v : Binary f).isFinite = true) :
    (round negative v : Binary f).IsNearestTo (signed negative v) := by
  rw [round, ofRank] at h ⊢
  split_ifs at h ⊢ with hlt
  · exact isNearestTo_finite ⟨_, hlt⟩ hv ((Format.nearestRank_eq_iff hf hv).1 rfl) negative
  · cases h

/-- **Rounding is to the nearest number.** -/
theorem isNearestTo_ofRat (hf : 0 < f.fractionBits) (h : (ofRat v : Binary f).isFinite = true) :
    (ofRat v : Binary f).IsNearestTo v := by
  rw [ofRat] at h ⊢
  split_ifs at h ⊢ with hneg
  · have hnearest := isNearestTo_round hf (neg_nonneg.2 hneg.le) h
    rwa [signed, if_pos rfl, neg_neg] at hnearest
  · exact isNearestTo_round hf (not_lt.1 hneg) h

/-- **Rounding keeps the order of exact values.** -/
theorem toRat?_ofRat_mono (hf : 0 < f.fractionBits) {a b : Rat} (h : v ≤ w)
    (ha : (ofRat v : Binary f).toRat? = some a) (hb : (ofRat w : Binary f).toRat? = some b) :
    a ≤ b := by
  by_contra hlt
  rw [not_le] at hlt
  have hnear := isNearestTo_ofRat hf (isFinite_of_toRat? ha)
  have hnear' := isNearestTo_ofRat hf (isFinite_of_toRat? hb)
  have hv := add_le_two_mul_of_abs_le hlt (hnear.abs_le ha hb)
  have hw := two_mul_le_add_of_abs_le hlt (hnear'.abs_le hb ha)
  obtain rfl : v = w := le_antisymm h (by linarith)
  rw [ha, Option.some.injEq] at hb
  exact hlt.ne' hb

/-! ### Sums -/

/-- A sum has the value that the exact sum rounds to. -/
theorem toRat?_add {s t : Bool} {a b : Fin f.infinityRank} :
    ((finite s a).add (finite t b)).toRat? =
      (ofRat (signed s (magnitude f a) + signed t (magnitude f b)) : Binary f).toRat? := by
  rw [add]
  split_ifs with hzero
  · -- an exact zero may be the negative one
    rw [hzero, ofRat, if_neg (lt_irrefl 0), round, round, zero_mul, Format.nearestRank_zero, ofRank,
      ofRank]
    split_ifs with hlt
    · rw [toRat?, toRat?, magnitude_zero, signed_zero, signed_zero]
    · rfl
  · rfl

/-- **A finite sum is the number nearest to the exact sum.** -/
theorem isNearestTo_add (hf : 0 < f.fractionBits) {s t : Bool} {a b : Fin f.infinityRank}
    (h : ((finite s a).add (finite t b)).isFinite = true) :
    ((finite s a).add (finite t b)).IsNearestTo
      (signed s (magnitude f a) + signed t (magnitude f b)) := by
  rw [add] at h ⊢
  split_ifs at h ⊢ with hzero
  · have hnearest := isNearestTo_round hf le_rfl h
    rw [signed_zero] at hnearest
    rwa [hzero]
  · exact isNearestTo_ofRat hf h

/-! ### Order -/

/-- Finite numbers are ordered by their values. -/
theorem finite_le_finite_iff {s t : Bool} {a b : Fin f.infinityRank} :
    (finite s a).le (finite t b) = true ↔
      signed s (magnitude f a) ≤ signed t (magnitude f b) := by
  have ha := magnitude_nonneg f a
  have hb := magnitude_nonneg f b
  have hmono : magnitude f a ≤ magnitude f b ↔ a.val ≤ b.val := (magnitude_strictMono f).le_iff_le
  have hmono' : magnitude f b ≤ magnitude f a ↔ b.val ≤ a.val := (magnitude_strictMono f).le_iff_le
  rw [le, position?, position?, decide_eq_true_iff]
  cases s <;> cases t <;> simp only [signed, if_true, Bool.false_eq_true, if_false]
  · rw [hmono, Nat.cast_le]
  · -- a number that is not negative is below one that is not positive only if both are zero
    have hzero : ∀ n : Nat, magnitude f n ≤ 0 ↔ n = 0 := by
      intro n
      rw [← magnitude_zero f, (magnitude_strictMono f).le_iff_le, Nat.le_zero]
    constructor
    · intro h
      have h' : a.val = 0 ∧ b.val = 0 := by omega
      rw [h'.1, h'.2, magnitude_zero, neg_zero]
    · intro h
      have ha' := (hzero a).1 (by linarith)
      have hb' := (hzero b).1 (by linarith)
      omega
  · exact iff_of_true (by omega) (by linarith)
  · rw [neg_le_neg_iff, neg_le_neg_iff, hmono', Nat.cast_le]

/-- The negative infinity is below everything, and the positive one below itself. -/
theorem inf_le_iff (hf : 0 < f.infinityRank) {s : Bool} :
    (inf s).le y = true ↔ y ≠ nan ∧ (s = true ∨ y = inf false) := by
  cases y with
  | nan => exact iff_of_false Bool.false_ne_true fun h => h.1 rfl
  | inf t => cases s <;> cases t <;> grind [le, position?]
  | finite t b =>
      have hb := b.isLt
      cases s <;> cases t <;> grind [le, position?]

/-- The positive infinity is above everything, and the negative one above itself. -/
theorem le_inf_iff (hf : 0 < f.infinityRank) {t : Bool} :
    x.le (inf t) = true ↔ x ≠ nan ∧ (t = false ∨ x = inf true) := by
  cases x with
  | nan => exact iff_of_false Bool.false_ne_true fun h => h.1 rfl
  | inf s => cases s <;> cases t <;> grind [le, position?]
  | finite s a =>
      have ha := a.isLt
      cases s <;> cases t <;> grind [le, position?]

/-- **The order of numbers is the order of their values,** with the infinities at the ends. -/
theorem le_iff (hf : 0 < f.infinityRank) : x.le y = true ↔
    x ≠ nan ∧ y ≠ nan ∧
      (x = inf true ∨ y = inf false ∨
        ∃ v w, x.toRat? = some v ∧ y.toRat? = some w ∧ v ≤ w) := by
  cases x with
  | nan => exact iff_of_false Bool.false_ne_true fun h => h.1 rfl
  | inf s =>
      rw [inf_le_iff hf]
      simp [toRat?]
  | finite s a =>
      cases y with
      | nan => exact iff_of_false Bool.false_ne_true fun h => h.2.1 rfl
      | inf t =>
          rw [le_inf_iff hf]
          simp [toRat?]
      | finite t b =>
          rw [finite_le_finite_iff]
          simp [toRat?]

/-! ### Whole numbers -/

/-- A whole number of at most `p + 1` binary digits, or the first one with more, is a magnitude of a
format whose range it is in. -/
theorem exists_magnitude_eq (hrange : (f.unitExponent + 3) * f.lead ≤ f.infinityRank) {n : Nat}
    (h : n ≤ 2 * f.lead) : ∃ rank : Fin f.infinityRank, magnitude f rank = n := by
  have hlead := f.lead_pos
  obtain ⟨rank, hlt, hunits⟩ : ∃ rank < (f.unitExponent + 3) * f.lead,
      f.units rank = n * f.unitsPerOne := by
    rw [Format.unitsPerOne_eq]
    rcases h.lt_or_eq with hlt | rfl
    · obtain ⟨rank, hrank, hunits⟩ := f.exists_units_eq f.unitExponent n hlt
      exact ⟨rank, hrank.trans_le (Nat.mul_le_mul_right _ (by omega)), hunits⟩
    · obtain ⟨rank, hrank, hunits⟩ := f.exists_units_eq (f.unitExponent + 1) f.lead (by omega)
      exact ⟨rank, hrank, by rw [hunits, pow_succ]; ring⟩
  have hne : (f.unitsPerOne : Rat) ≠ 0 := by exact_mod_cast f.unitsPerOne_pos.ne'
  refine ⟨⟨rank, hlt.trans_le hrange⟩, ?_⟩
  rw [magnitude, hunits, Nat.cast_mul, mul_div_cancel_right₀ _ hne]

/-- **Such a whole number is not rounded.** -/
theorem exists_ofInt_eq_finite (hrange : (f.unitExponent + 3) * f.lead ≤ f.infinityRank) {n : Int}
    (h : n.natAbs ≤ 2 * f.lead) :
    ∃ rank : Fin f.infinityRank, (ofInt n : Binary f) = finite (decide (n < 0)) rank ∧
      signed (decide (n < 0)) (magnitude f rank) = n := by
  obtain ⟨rank, hrank⟩ := exists_magnitude_eq hrange h
  have hn : signed (decide (n < 0)) (magnitude f rank) = n := by
    rw [hrank, ← Int.cast_natCast]
    rcases lt_or_ge n 0 with hneg | hpos
    · rw [decide_eq_true hneg, signed, if_pos rfl, Int.ofNat_natAbs_of_nonpos hneg.le, Int.cast_neg,
        neg_neg]
    · rw [decide_eq_false hpos.not_gt, signed, if_neg Bool.false_ne_true,
        Int.natAbs_of_nonneg hpos]
  have hpos : decide (n < 0) = true → 0 < rank.val := by
    intro hneg
    refine Nat.pos_of_ne_zero fun hzero => ?_
    rw [hzero, magnitude_zero] at hrank
    have : n.natAbs = 0 := by exact_mod_cast hrank.symm
    exact absurd (of_decide_eq_true hneg) (by omega)
  refine ⟨rank, ?_, hn⟩
  rw [← ofRat_signed_magnitude hpos, hn, ofInt]

end Paddock.Binary
