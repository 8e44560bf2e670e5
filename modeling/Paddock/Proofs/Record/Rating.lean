import Paddock.Proofs.Binary.Order

/-!
# Record — the rating of an engine

The rating is a sum with two roundings: the horsepower is rounded to the 32-bit format, and so is
its sum with the torque.  A torque that is not finite is the rating (`rating_eq_nan_iff`,
`rating_eq_inf_iff`).  With a finite torque the rating is the number nearest to the exact sum of the
rounded horsepower and the torque (`exists_rating_eq`), and it is finite; whole numbers up to
`2 ^ 24` are numbers of the format, so that only the sum is rounded (`toRat?_ofInt_of_le`).  No
rating is the negative zero (`rank_pos_of_rating_eq`).

Both roundings keep the order of exact values, so a rating never drops when horsepower or torque is
raised.
-/

namespace Paddock

namespace Binary

variable {f : Format} {s t : Bool} {a b rank : Fin f.infinityRank}

/-! ### Sums that are the negative zero -/

/-- A finite number is a whole number of units. -/
theorem exists_signed_magnitude_mul_eq (s : Bool) (n : Nat) :
    ∃ z : Int, signed s (magnitude f n) * (f.unitsPerOne : Rat) = z := by
  cases s with
  | false => exact ⟨f.units n, by rw [Int.cast_natCast]; exact magnitude_mul_unitsPerOne f n⟩
  | true =>
      refine ⟨-f.units n, ?_⟩
      rw [signed, if_pos rfl, neg_mul, magnitude_mul_unitsPerOne, Int.cast_neg, Int.cast_natCast]

/-- A sum is no negative zero if its first term is none. -/
theorem rank_pos_of_add_eq (hf : 0 < f.fractionBits) (ha : s = true → 0 < a.val)
    (h : (finite s a).add (finite t b) = finite true rank) : 0 < rank.val := by
  rw [add] at h
  split_ifs at h with hzero
  · -- two negative terms, the first of them not zero, have no sum of zero
    obtain ⟨hs, ht⟩ := (Bool.and_eq_true _ _).mp (ofRank_eq_finite h).1
    have hpos := magnitude_pos (f := f) (ha hs)
    have hnonneg := magnitude_nonneg f b
    rw [hs, ht, signed, signed, if_pos rfl, if_pos rfl] at hzero
    linarith
  · rw [ofRat] at h
    split_ifs at h with hneg
    · obtain ⟨-, hrank⟩ := ofRank_eq_finite h
      rw [← hrank]
      refine Format.le_nearestRank hf ?_
      obtain ⟨y, hy⟩ := exists_signed_magnitude_mul_eq (f := f) s a
      obtain ⟨z, hz⟩ := exists_signed_magnitude_mul_eq (f := f) t b
      have hone : (0 : Rat) < (f.unitsPerOne : Rat) := by exact_mod_cast f.unitsPerOne_pos
      have hsum : (signed s (magnitude f a) + signed t (magnitude f b)) * (f.unitsPerOne : Rat) =
          ((y + z : Int) : Rat) := by
        rw [add_mul, hy, hz, Int.cast_add]
      have hlt : y + z < 0 := by
        have := mul_neg_of_neg_of_pos hneg hone
        rw [hsum] at this
        exact_mod_cast this
      rw [Format.units_one, neg_mul, hsum]
      exact_mod_cast (by omega : (1 : Int) ≤ -(y + z))
    · cases (ofRank_eq_finite h).1

/-! ### Whole numbers -/

theorem isNearestTo_ofInt (n : Int32) : (ofInt n.toInt : Single).IsNearestTo (n.toInt : Rat) := by
  obtain ⟨negative, rank, heq, -⟩ := exists_ofInt_eq n
  refine isNearestTo_ofRat (by decide) ?_
  rw [← ofInt, heq]
  rfl

/-- **Whole numbers up to `2 ^ 24` are not rounded.** -/
theorem toRat?_ofInt_of_le {n : Int} (h : |n| ≤ 2 ^ 24) :
    (ofInt n : Single).toRat? = some (n : Rat) := by
  have hdigits : n.natAbs ≤ 2 * Format.single.lead := by
    rw [Int.abs_eq_natAbs] at h
    rw [Format.lead_eq, ← pow_succ']
    exact_mod_cast h
  obtain ⟨rank, heq, hn⟩ := exists_ofInt_eq_finite (f := .single) (by decide) hdigits
  rw [heq, toRat?, hn]

end Binary

namespace Engine

variable {e : Engine}

/-! ### Ratings of all torques -/

theorem rating_of_nan (h : e.torque = .nan) : e.rating = .nan := by
  obtain ⟨negative, rank, heq, -⟩ := Binary.exists_ofInt_eq e.horsepower
  rw [rating, heq, h]
  rfl

theorem rating_of_inf {s : Bool} (h : e.torque = .inf s) : e.rating = .inf s := by
  obtain ⟨negative, rank, heq, -⟩ := Binary.exists_ofInt_eq e.horsepower
  rw [rating, heq, h]
  rfl

/-- A rating is finite exactly if the torque is. -/
theorem isFinite_rating_iff : e.rating.isFinite = true ↔ e.torque.isFinite = true := by
  refine ⟨fun h => ?_, isFinite_rating⟩
  cases ht : e.torque with
  | nan =>
      rw [rating_of_nan ht] at h
      cases h
  | inf s =>
      rw [rating_of_inf ht] at h
      cases h
  | finite s a => rfl

/-- A rating is NaN exactly if the torque is. -/
theorem rating_eq_nan_iff : e.rating = .nan ↔ e.torque = .nan := by
  refine ⟨fun h => ?_, rating_of_nan⟩
  cases ht : e.torque with
  | nan => rfl
  | inf s =>
      rw [rating_of_inf ht] at h
      cases h
  | finite s a =>
      have hfinite := isFinite_rating_iff.2 (show e.torque.isFinite = true by rw [ht]; rfl)
      rw [h] at hfinite
      cases hfinite

/-- A rating is an infinity exactly if the torque is that infinity. -/
theorem rating_eq_inf_iff {s : Bool} : e.rating = .inf s ↔ e.torque = .inf s := by
  refine ⟨fun h => ?_, rating_of_inf⟩
  cases ht : e.torque with
  | nan =>
      rw [rating_of_nan ht] at h
      cases h
  | inf t => exact (rating_of_inf ht).symm.trans h
  | finite t a =>
      have hfinite := isFinite_rating_iff.2 (show e.torque.isFinite = true by rw [ht]; rfl)
      rw [h] at hfinite
      cases hfinite

/-- With a finite torque the rating is the rounded sum of the rounded horsepower and the torque. -/
theorem exists_rating_eq {v : Rat} (h : e.torque.toRat? = some v) :
    ∃ p r, (Binary.ofInt e.horsepower.toInt : Single).toRat? = some p ∧
      e.rating.toRat? = some r ∧ (Binary.ofRat (p + v) : Single).toRat? = some r ∧
      e.rating.IsNearestTo (p + v) := by
  obtain ⟨s, a, heq, -⟩ := Binary.exists_ofInt_eq e.horsepower
  obtain ⟨t, b, htorque, rfl⟩ := Binary.toRat?_eq_some_iff.1 h
  have hfinite : e.rating.isFinite = true := isFinite_rating (by rw [htorque]; rfl)
  obtain ⟨r, hr⟩ := Binary.exists_toRat?_of_isFinite hfinite
  have hrating : e.rating = (Binary.finite s a).add (.finite t b) := by rw [rating, heq, htorque]
  refine ⟨_, r, by rw [heq]; rfl, hr, ?_, ?_⟩
  · rw [← Binary.toRat?_add, ← hrating, hr]
  · rw [hrating] at hfinite ⊢
    exact Binary.isNearestTo_add (by decide) hfinite

/-- No rating is the negative zero. -/
theorem rank_pos_of_rating_eq {rank : Fin Format.single.infinityRank}
    (h : e.rating = .finite true rank) : 0 < rank.val := by
  obtain ⟨s, a, heq, -⟩ := Binary.exists_ofInt_eq e.horsepower
  have ha : s = true → 0 < a.val := by
    rintro rfl
    exact Binary.rank_pos_of_ofInt_eq (by decide) heq
  have hfinite : e.torque.isFinite = true := isFinite_rating_iff.1 (by rw [h]; rfl)
  cases ht : e.torque with
  | nan => rw [ht] at hfinite; cases hfinite
  | inf t => rw [ht] at hfinite; cases hfinite
  | finite t b =>
      rw [rating, heq, ht] at h
      exact Binary.rank_pos_of_add_eq (by decide) ha h

theorem toBits_rating_ne (e : Engine) : e.rating.toBits ≠ 0x80000000#32 := by
  intro h
  have hzero : (Binary.ofBits 0x80000000#32 : Single) = .finite true ⟨0, by decide⟩ := by
    decide +kernel
  have hrating : e.rating = .finite true ⟨0, by decide⟩ := by
    rw [← hzero, ← h, Binary.ofBits_toBits (by decide)]
  exact absurd (rank_pos_of_rating_eq hrating) (lt_irrefl 0)

/-- **The rating is correctly rounded and never overflows.**  It is NaN exactly if the torque is, an
infinity exactly if the torque is that infinity, and never the negative zero.  With a finite torque
it is the number nearest to the exact sum of the torque and the number nearest to the horsepower; up
to a horsepower of `2 ^ 24` it is the number nearest to the exact sum of torque and horsepower. -/
theorem rating_correctly_rounded (horsepower : Int32) (bits : BitVec 32) :
    let e : Engine := ⟨horsepower, .ofBits bits⟩
    (e.rating = .nan ↔ Binary.IsNaNPattern (f := .single) bits) ∧
      (∀ s, e.rating = .inf s ↔ (Binary.ofBits bits : Single) = .inf s) ∧
      e.rating.toBits ≠ 0x80000000#32 ∧
      ∀ v, (Binary.ofBits bits : Single).toRat? = some v →
        ∃ p, (Binary.ofInt horsepower.toInt : Single).IsNearestTo (horsepower.toInt : Rat) ∧
          (Binary.ofInt horsepower.toInt : Single).toRat? = some p ∧
          e.rating.IsNearestTo (p + v) ∧
          (|horsepower.toInt| ≤ 2 ^ 24 → e.rating.IsNearestTo (horsepower.toInt + v)) := by
  intro e
  refine ⟨?_, fun s => rating_eq_inf_iff, e.toBits_rating_ne, fun v hv => ?_⟩
  · rw [← Binary.ofBits_eq_nan_iff]
    exact rating_eq_nan_iff
  · obtain ⟨p, r, hp, -, -, hnearest⟩ := exists_rating_eq (e := e) hv
    refine ⟨p, Binary.isNearestTo_ofInt horsepower, hp, hnearest, fun hle => ?_⟩
    have hexact : (Binary.ofInt e.horsepower.toInt : Single).toRat? = some _ :=
      Binary.toRat?_ofInt_of_le hle
    rw [hexact, Option.some.injEq] at hp
    rwa [← hp] at hnearest

/-! ### Order -/

/-- With finite torques, more horsepower and more torque are no less a rating. -/
theorem rating_le_of_toRat? {a b : Engine} (hhorsepower : a.horsepower ≤ b.horsepower) {v w : Rat}
    (ha : a.torque.toRat? = some v) (hb : b.torque.toRat? = some w) (h : v ≤ w) :
    ∃ r q, a.rating.toRat? = some r ∧ b.rating.toRat? = some q ∧ r ≤ q := by
  have hf : 0 < Format.single.fractionBits := by decide
  obtain ⟨p, r, hp, hr, hpr, -⟩ := exists_rating_eq ha
  obtain ⟨o, q, ho, hq, hoq, -⟩ := exists_rating_eq hb
  have hle : (a.horsepower.toInt : Rat) ≤ b.horsepower.toInt := by
    exact_mod_cast Int32.le_iff_toInt_le.1 hhorsepower
  have hpo : p ≤ o := Binary.toRat?_ofRat_mono hf hle hp ho
  exact ⟨r, q, hr, hq, Binary.toRat?_ofRat_mono hf (add_le_add hpo h) hpr hoq⟩

/-- **The rating is monotone:** it never drops when horsepower or torque is raised, and neither does
the result that a report shows. -/
theorem rating_monotone (a b : Engine) (hhorsepower : a.horsepower ≤ b.horsepower)
    (htorque : a.torque.le b.torque = true) :
    a.rating.le b.rating = true ∧
      ∀ c d : Car, (Showcase.mk a c).report.result.le (Showcase.mk b d).report.result = true := by
  have hrating : a.rating.le b.rating = true := by
    obtain ⟨ha, hb, hcases⟩ := (Binary.le_iff infinityRank_single_pos).1 htorque
    refine (Binary.le_iff infinityRank_single_pos).2 ⟨mt rating_eq_nan_iff.1 ha,
      mt rating_eq_nan_iff.1 hb, ?_⟩
    rcases hcases with hinf | hinf | ⟨v, w, hv, hw, hle⟩
    · exact .inl (rating_of_inf hinf)
    · exact .inr (.inl (rating_of_inf hinf))
    · exact .inr (.inr (rating_le_of_toRat? hhorsepower hv hw hle))
  exact ⟨hrating, fun _ _ => hrating⟩

/-- Two engines whose horsepower is one number of the format, the second with the greater torque. -/
theorem rating_monotone_collapsed :
    let a : Engine := ⟨16777216, .ofBits 0x80000000⟩
    let b : Engine := ⟨16777217, .ofBits 0x00000001⟩
    (a.horsepower ≤ b.horsepower ∧ a.torque.le b.torque = true) ∧
      a.rating.le b.rating = true ∧
      ∀ c d : Car, (Showcase.mk a c).report.result.le (Showcase.mk b d).report.result = true := by
  intro a b
  have hhorsepower : a.horsepower ≤ b.horsepower := by decide
  have htorque : a.torque.le b.torque = true := by decide +kernel
  exact ⟨⟨hhorsepower, htorque⟩, rating_monotone a b hhorsepower htorque⟩

end Engine

end Paddock
