import Paddock.Proofs.Binary.Exact

/-!
# Binary — bit patterns

A bit pattern is a sign and a rank.  The patterns of NaN are those with a full exponent field and a
fraction that is not zero; their ranks are the ones beyond `infinityRank`.  Two patterns are
*alike* when they are the same bits or both of NaN, and this is exactly when they encode one number
(`ofBits_eq_iff`).  A number is what its own pattern encodes (`ofBits_toBits`).
-/

namespace Paddock.Binary

variable {f : Format} {u v : BitVec f.width}

/-- Whether a pattern is one of NaN: its exponent field is full and its fraction is not zero. -/
def IsNaNPattern (u : BitVec f.width) : Prop :=
  u.extractLsb' f.fractionBits f.exponentBits = BitVec.allOnes f.exponentBits ∧
    u.extractLsb' 0 f.fractionBits ≠ 0#f.fractionBits

/-- Whether two patterns are the same bits or both of NaN. -/
def Alike (u v : BitVec f.width) : Prop := u = v ∨ IsNaNPattern u ∧ IsNaNPattern v

/-! ### The rank in a pattern -/

/-- The rank in a pattern. -/
def patternRank (u : BitVec f.width) : Nat := (u.setWidth (f.exponentBits + f.fractionBits)).toNat

theorem infinityRank_eq (f : Format) :
    f.infinityRank = (2 ^ f.exponentBits - 1) * 2 ^ f.fractionBits := by
  rw [Format.infinityRank, Format.lead_eq, Nat.one_shiftLeft]

theorem infinityRank_add_lead (f : Format) :
    f.infinityRank + f.lead = 2 ^ (f.exponentBits + f.fractionBits) := by
  have hpos := Nat.two_pow_pos f.exponentBits
  rw [infinityRank_eq, Format.lead_eq, ← Nat.succ_mul, pow_add]
  congr 1
  omega

/-- Sign and rank make up the whole pattern. -/
theorem eq_of_patternRank_eq (hsign : u.msb = v.msb) (hrank : patternRank u = patternRank v) :
    u = v := by
  have hlow := BitVec.eq_of_toNat_eq hrank
  rw [← BitVec.cons_msb_setWidth u, ← BitVec.cons_msb_setWidth v, hsign, hlow]

/-- The exponent field is what is left of the rank above the fraction. -/
theorem toNat_exponentField (u : BitVec f.width) :
    (u.extractLsb' f.fractionBits f.exponentBits).toNat = patternRank u / 2 ^ f.fractionBits := by
  rw [BitVec.extractLsb'_toNat, Nat.shiftRight_eq_div_pow, patternRank, BitVec.toNat_setWidth,
    Nat.add_comm f.exponentBits, pow_add, Nat.mod_mul_right_div_self]

/-- The fraction field is the low part of the rank. -/
theorem toNat_fractionField (u : BitVec f.width) :
    (u.extractLsb' 0 f.fractionBits).toNat = patternRank u % 2 ^ f.fractionBits := by
  rw [BitVec.extractLsb'_toNat, Nat.shiftRight_zero, patternRank, BitVec.toNat_setWidth,
    Nat.add_comm f.exponentBits, pow_add, Nat.mod_mul_right_mod]

theorem patternRank_lt (u : BitVec f.width) : patternRank u < f.infinityRank + f.lead := by
  rw [infinityRank_add_lead]
  exact (u.setWidth _).isLt

theorem isNaNPattern_iff : IsNaNPattern u ↔ f.infinityRank < patternRank u := by
  have hexp : u.extractLsb' f.fractionBits f.exponentBits = BitVec.allOnes f.exponentBits ↔
      patternRank u / 2 ^ f.fractionBits = 2 ^ f.exponentBits - 1 := by
    rw [← BitVec.toNat_inj, toNat_exponentField, BitVec.toNat_allOnes]
  have hfrac : u.extractLsb' 0 f.fractionBits = 0#f.fractionBits ↔
      patternRank u % 2 ^ f.fractionBits = 0 := by
    rw [← BitVec.toNat_inj, toNat_fractionField, BitVec.toNat_ofNat, Nat.zero_mod]
  have hlt := patternRank_lt u
  rw [IsNaNPattern, ne_eq, hexp, hfrac]
  rw [infinityRank_eq, Format.lead_eq] at *
  have hpos := Nat.two_pow_pos f.fractionBits
  generalize 2 ^ f.fractionBits = step at *
  generalize 2 ^ f.exponentBits - 1 = full at *
  have hsplit := Nat.div_add_mod' (patternRank u) step
  have hmod := Nat.mod_lt (patternRank u) hpos
  constructor
  · rintro ⟨hq, hr⟩
    rw [hq] at hsplit
    omega
  · intro h
    have hq : patternRank u / step = full := by
      rw [Nat.div_eq_iff hpos]
      omega
    rw [hq] at hsplit
    exact ⟨hq, by omega⟩

/-! ### Reading patterns -/

theorem ofBits_of_lt (h : patternRank u < f.infinityRank) :
    ofBits u = finite u.msb ⟨patternRank u, h⟩ := dif_pos h

theorem ofBits_of_eq (h : patternRank u = f.infinityRank) : ofBits u = inf u.msb :=
  (dif_neg h.not_lt).trans (if_pos h)

theorem ofBits_of_gt (h : f.infinityRank < patternRank u) : ofBits u = nan :=
  (dif_neg h.not_gt).trans (if_neg h.ne')

/-- **Reading a pattern forgets nothing but which NaN it was.** -/
theorem ofBits_eq_iff : ofBits u = ofBits v ↔ Alike u v := by
  rw [Alike, isNaNPattern_iff, isNaNPattern_iff]
  constructor
  · intro h
    rcases lt_trichotomy (patternRank u) f.infinityRank with hu | hu | hu <;>
      rcases lt_trichotomy (patternRank v) f.infinityRank with hv | hv | hv <;>
      simp only [ofBits_of_lt, ofBits_of_eq, ofBits_of_gt, hu, hv, reduceCtorEq, finite.injEq,
        inf.injEq, Fin.mk.injEq] at h
    · exact .inl (eq_of_patternRank_eq h.1 h.2)
    · exact .inl (eq_of_patternRank_eq h (hu.trans hv.symm))
    · exact .inr ⟨hu, hv⟩
  · rintro (rfl | ⟨hu, hv⟩)
    · rfl
    · rw [ofBits_of_gt hu, ofBits_of_gt hv]

theorem isFinite_ofBits_iff : (ofBits u).isFinite = true ↔ patternRank u < f.infinityRank := by
  rcases lt_trichotomy (patternRank u) f.infinityRank with hu | hu | hu
  · rw [ofBits_of_lt hu]
    exact iff_of_true rfl hu
  · rw [ofBits_of_eq hu]
    exact iff_of_false Bool.false_ne_true hu.not_lt
  · rw [ofBits_of_gt hu]
    exact iff_of_false Bool.false_ne_true hu.not_gt

theorem ofBits_eq_nan_iff : ofBits u = nan ↔ IsNaNPattern u := by
  rw [isNaNPattern_iff]
  refine ⟨fun h => ?_, ofBits_of_gt⟩
  by_contra hle
  rcases (not_lt.1 hle).lt_or_eq with hu | hu
  · rw [ofBits_of_lt hu] at h
    cases h
  · rw [ofBits_of_eq hu] at h
    cases h

/-- Two patterns of one number are the same bits unless it is NaN. -/
theorem ofBits_inj (hu : ofBits u ≠ nan) : ofBits u = ofBits v ↔ u = v := by
  rw [ofBits_eq_iff, Alike, ← ofBits_eq_nan_iff, ← ofBits_eq_nan_iff]
  exact or_iff_left fun h => hu h.1

/-! ### Writing patterns -/

theorem msb_pattern (negative : Bool) (rank : Nat) : (pattern f negative rank).msb = negative :=
  BitVec.msb_cons

theorem patternRank_pattern (f : Format) (negative : Bool) (rank : Nat)
    (h : rank < f.infinityRank + f.lead) : patternRank (pattern f negative rank) = rank := by
  rw [patternRank, pattern, BitVec.setWidth_cons, BitVec.toNat_ofNat, ← infinityRank_add_lead,
    Nat.mod_eq_of_lt h]

/-- **A number is what its pattern encodes.** -/
theorem ofBits_toBits (hf : 0 < f.fractionBits) (x : Binary f) : ofBits x.toBits = x := by
  have hlead := f.lead_pos
  cases x with
  | nan =>
      have hhalf : 0 < f.lead / 2 := by
        obtain ⟨n, hn⟩ := Nat.exists_eq_succ_of_ne_zero hf.ne'
        rw [Format.lead_eq, hn, Nat.pow_succ, Nat.mul_div_cancel _ Nat.two_pos]
        exact Nat.two_pow_pos n
      refine ofBits_of_gt ?_
      rw [toBits, patternRank_pattern f false _ (by omega)]
      omega
  | inf negative =>
      have hrank := patternRank_pattern f negative f.infinityRank (by omega)
      rw [toBits, ofBits_of_eq hrank, msb_pattern]
  | finite negative rank =>
      have hrank := patternRank_pattern f negative rank (by omega)
      rw [toBits, ofBits_of_lt (hrank.trans_lt rank.isLt), msb_pattern]
      simp only [hrank]

/-- A pattern that is not one of NaN is that of the number it encodes. -/
theorem toBits_ofBits (hf : 0 < f.fractionBits) (hu : ¬IsNaNPattern u) : (ofBits u).toBits = u := by
  have hnan : ofBits (ofBits u).toBits ≠ nan := by
    rw [ofBits_toBits hf]
    exact mt ofBits_eq_nan_iff.1 hu
  exact (ofBits_inj hnan).1 (ofBits_toBits hf (ofBits u))

end Paddock.Binary
