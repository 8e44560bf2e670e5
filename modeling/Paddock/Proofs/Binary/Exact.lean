import Mathlib.Algebra.Order.Field.Rat
import Mathlib.Tactic.FieldSimp
import Mathlib.Tactic.Ring
import Paddock.Binary.Arith

/-!
# Binary — what is representable survives rounding

A value that is already a magnitude of the format is its own nearest number (`nearestRank_units`,
`round_magnitude`).  The proof reads the spacing of a rank off the size of its magnitude: a rank of
the block `q` has a magnitude between `2 ^ (p + q - 1)` and `2 ^ (p + q)` units, so `scaleAt` finds
the spacing the rank was built with.

Whatever has at most `p + 1` binary digits is a magnitude (`exists_units_eq`), whatever its power of
two.  So every number of the 32-bit format is one of the 64-bit format (`convert_finite`).
-/

namespace Paddock

theorem nearestEven_natCast (n : Nat) : nearestEven (n : Rat) = n := by
  have hfloor : (n : Rat).floor = n := Rat.floor_intCast n
  simp [nearestEven, hfloor]

namespace Format

variable {f : Format}

theorem lead_eq (f : Format) : f.lead = 2 ^ f.fractionBits := Nat.one_shiftLeft _

theorem unitsPerOne_eq (f : Format) : f.unitsPerOne = 2 ^ f.unitExponent := Nat.one_shiftLeft _

theorem units_eq (f : Format) (rank : Nat) :
    f.units rank = f.significand rank * 2 ^ f.scale rank := Nat.shiftLeft_eq _ _

theorem scale_mul_lead_le (f : Format) (rank : Nat) : f.scale rank * f.lead ≤ rank :=
  (Nat.mul_le_mul_right _ (Nat.sub_le _ 1)).trans (Nat.div_mul_le_self rank f.lead)

theorem significand_lt (f : Format) (rank : Nat) : f.significand rank < 2 * f.lead := by
  have hlt := Nat.lt_div_mul_add f.lead_pos (a := rank)
  have hle : rank / f.lead * f.lead ≤ f.scale rank * f.lead + f.lead := by
    rw [← Nat.succ_mul]
    exact Nat.mul_le_mul_right _ (by unfold scale; omega)
  have hpos := f.lead_pos
  unfold significand
  omega

/-- Beyond the first block a significand has its leading bit. -/
theorem lead_le_significand {rank : Nat} (h : 0 < f.scale rank) : f.lead ≤ f.significand rank := by
  have hle := Nat.div_mul_le_self rank f.lead
  have hq : rank / f.lead = f.scale rank + 1 := by unfold scale at h ⊢; omega
  rw [hq, Nat.succ_mul] at hle
  unfold significand
  omega

/-- The spacing that rounding chooses at a magnitude is the spacing of its rank. -/
theorem scaleAt_units (f : Format) (rank : Nat) :
    f.scaleAt (f.units rank : Rat) = f.scale rank := by
  have hfloor : (f.units rank : Rat).floor.toNat = f.units rank := by
    rw [show (f.units rank : Rat).floor = f.units rank from Rat.floor_intCast _, Int.toNat_natCast]
  have hlt := f.significand_lt rank
  rw [lead_eq, ← Nat.pow_succ'] at hlt
  rw [scaleAt, hfloor]
  rcases Nat.eq_zero_or_pos (f.scale rank) with hs | hs
  · -- the first two blocks: the magnitude is the significand itself
    have hu : f.units rank = f.significand rank := by rw [units_eq, hs, pow_zero, mul_one]
    rw [hs, hu]
    rcases Nat.eq_zero_or_pos (f.significand rank) with hz | hz
    · simp [hz]
    · have := (Nat.log2_lt hz.ne').2 hlt
      omega
  · have hle := lead_le_significand hs
    rw [lead_eq] at hle
    have hpos : 0 < f.significand rank := (Nat.two_pow_pos _).trans_le hle
    have hlog : (f.units rank).log2 = f.fractionBits + f.scale rank := by
      have hne : f.units rank ≠ 0 := by
        rw [units_eq]
        exact (Nat.mul_pos hpos (Nat.two_pow_pos _)).ne'
      rw [Nat.log2_eq_iff hne, units_eq]
      constructor
      · rw [pow_add]
        exact Nat.mul_le_mul_right _ hle
      · rw [show f.fractionBits + f.scale rank + 1 = f.fractionBits + 1 + f.scale rank by omega,
          pow_add]
        exact Nat.mul_lt_mul_of_pos_right hlt (Nat.two_pow_pos _)
    rw [hlog]
    omega

/-- A magnitude rounds to its own rank. -/
theorem nearestRank_units (f : Format) (rank : Nat) :
    f.nearestRank (f.units rank : Rat) = rank := by
  have hstep : ((1 <<< f.scale rank : Nat) : Rat) ≠ 0 := by
    rw [Nat.one_shiftLeft]
    exact_mod_cast (Nat.two_pow_pos _).ne'
  have hquot : (f.units rank : Rat) / ((1 <<< f.scale rank : Nat) : Rat) =
      (f.significand rank : Rat) := by
    rw [div_eq_iff hstep, Nat.one_shiftLeft, units_eq]
    push_cast
    ring
  rw [nearestRank, scaleAt_units, hquot, nearestEven_natCast]
  have := f.scale_mul_lead_le rank
  unfold significand
  omega

theorem units_zero (f : Format) : f.units 0 = 0 := by simp [units, significand]

theorem nearestRank_zero (f : Format) : f.nearestRank 0 = 0 := by
  have hzero := f.nearestRank_units 0
  rwa [units_zero, Nat.cast_zero] at hzero

/-- A whole number of at most `p + 1` binary digits, shifted by any power of two, is a magnitude. -/
theorem exists_units_eq (f : Format) :
    ∀ (shift m : Nat), m < 2 * f.lead →
      ∃ rank < (shift + 2) * f.lead, f.units rank = m * 2 ^ shift
  | 0, m, hm => by
      have hs : f.scale m = 0 := by
        have := (Nat.div_lt_iff_lt_mul f.lead_pos).2 hm
        unfold scale
        omega
      exact ⟨m, by omega, by simp [units_eq, significand, hs]⟩
  | shift + 1, m, hm => by
      by_cases hlead : m < f.lead
      · -- a short significand is doubled until it has its leading bit
        obtain ⟨rank, hlt, hrank⟩ := exists_units_eq f shift (2 * m) (by omega)
        refine ⟨rank, hlt.trans_le (Nat.mul_le_mul_right _ (by omega)), ?_⟩
        rw [hrank, pow_succ]
        ring
      · have hm1 : m / f.lead = 1 := by
          rw [Nat.div_eq_iff f.lead_pos]
          omega
        have hs : f.scale (m + f.lead * (shift + 1)) = shift + 1 := by
          rw [scale, Nat.add_mul_div_left _ _ f.lead_pos, hm1]
          omega
        refine ⟨m + f.lead * (shift + 1), ?_, ?_⟩
        · calc m + f.lead * (shift + 1) < 2 * f.lead + f.lead * (shift + 1) := by omega
            _ = (shift + 1 + 2) * f.lead := by ring
        · rw [units_eq, significand, hs, Nat.mul_comm f.lead, Nat.add_sub_cancel]

end Format

namespace Binary

variable {f : Format}

theorem magnitude_mul_unitsPerOne (f : Format) (rank : Nat) :
    magnitude f rank * (f.unitsPerOne : Rat) = (f.units rank : Rat) :=
  div_mul_cancel₀ _ (by exact_mod_cast f.unitsPerOne_pos.ne')

/-- A magnitude of the format rounds to itself. -/
theorem round_magnitude (negative : Bool) (rank : Fin f.infinityRank) :
    round negative (magnitude f rank) = finite negative rank := by
  rw [round, magnitude_mul_unitsPerOne, Format.nearestRank_units, ofRank, dif_pos rank.isLt]

/-- A number of the 32-bit format has the same magnitude in the 64-bit format. -/
theorem convert_finite (negative : Bool) (rank : Fin Format.single.infinityRank) :
    ∃ wide : Fin Format.double.infinityRank,
      (finite negative rank : Single).convert = (finite negative wide : Double) ∧
        magnitude .double wide = magnitude .single rank := by
  -- the unit of the 64-bit format is `2 ^ 925` times finer
  obtain ⟨finer, hfiner⟩ : ∃ n, n = 925 := ⟨925, rfl⟩
  have hexp : Format.double.unitExponent = Format.single.unitExponent + finer := hfiner ▸ rfl
  have hscale : Format.single.scale rank ≤ 253 := by
    have hlt := rank.isLt
    have : rank.val / Format.single.lead < 255 :=
      (Nat.div_lt_iff_lt_mul Format.single.lead_pos).2 (by simpa [Format.infinityRank] using hlt)
    unfold Format.scale
    omega
  obtain ⟨wide, hlt, hwide⟩ := Format.double.exists_units_eq (Format.single.scale rank + finer)
    (Format.single.significand rank) ((Format.single.significand_lt rank).trans_le (by decide))
  have hmag : magnitude .double wide = magnitude .single rank := by
    have hunits : Format.double.units wide = Format.single.units rank * 2 ^ finer := by
      rw [hwide, Format.units_eq, pow_add, Nat.mul_assoc]
    have hone : Format.double.unitsPerOne = Format.single.unitsPerOne * 2 ^ finer := by
      rw [Format.unitsPerOne_eq, Format.unitsPerOne_eq, hexp, pow_add]
    have hne : ((2 ^ finer : Nat) : Rat) ≠ 0 := by exact_mod_cast (Nat.two_pow_pos finer).ne'
    rw [magnitude, magnitude, hunits, hone, Nat.cast_mul, Nat.cast_mul, mul_div_mul_right _ _ hne]
  have hfin : wide < Format.double.infinityRank := by
    refine hlt.trans_le (Nat.mul_le_mul_right _ ?_)
    show _ ≤ 2 ^ 11 - 1
    omega
  refine ⟨⟨wide, hfin⟩, ?_, hmag⟩
  rw [convert, ← hmag]
  exact round_magnitude negative ⟨wide, hfin⟩

end Binary

end Paddock
