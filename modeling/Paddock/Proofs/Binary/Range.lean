import Mathlib.Data.Rat.Floor
import Mathlib.Tactic.Linarith
import Paddock.Proofs.Binary.Exact
import Paddock.Record.Basic

/-!
# Binary — sums that stay in range

The ranks below `(top + 2) * lead` are those whose spacing is at most `2 ^ top` units.  A magnitude
that lies less than half a spacing beyond the last of them still rounds to one of them
(`nearestRank_lt`).  A 32-bit whole number is far below half the spacing at the largest `Single`, so
adding one to a finite number never overflows: the rating of an engine with a finite torque is
finite (`isFinite_rating`).
-/

namespace Paddock

theorem exists_floor_eq {x : Rat} (hx : 0 ≤ x) :
    ∃ below : Nat, x.floor = below ∧ (below : Rat) ≤ x ∧ x < below + 1 := by
  obtain ⟨below, hbelow⟩ := Int.eq_ofNat_of_zero_le (Rat.le_floor_iff.2 (by exact_mod_cast hx))
  refine ⟨below, hbelow, ?_, ?_⟩
  · have := Rat.floor_le x
    rw [hbelow] at this
    exact_mod_cast this
  · have := Rat.lt_floor_add_one x
    rw [hbelow] at this
    exact_mod_cast this

theorem abs_toInt_le (n : Int32) : |(n.toInt : Rat)| ≤ 2 ^ 31 := by
  have hle := n.minValue_le_toInt
  have hge := n.toInt_le
  rw [abs_le]
  exact ⟨by exact_mod_cast hle, by exact_mod_cast hge.trans (by decide)⟩

/-- Rounding to a whole number does not pass the nearest one. -/
theorem nearestEven_le {x : Rat} {n : Nat} (hx : 0 ≤ x) (h : x < n + 1 / 2) :
    nearestEven x ≤ n := by
  obtain ⟨below, hbelow, hle, -⟩ := exists_floor_eq hx
  have hn : below ≤ n := by
    have : (below : Rat) < (n + 1 : Nat) := by push_cast; linarith
    exact Nat.lt_succ_iff.1 (by exact_mod_cast this)
  rw [nearestEven, hbelow, Int.toNat_natCast]
  rcases hn.lt_or_eq with hlt | rfl
  · split_ifs <;> omega
  · rw [if_pos (by linarith)]

namespace Format

variable {f : Format}

/-- A magnitude is less than a whole row of significands at the spacing that rounding chooses. -/
theorem lt_scaleAt (f : Format) (t : Rat) :
    t < ((2 * f.lead * 2 ^ f.scaleAt t : Nat) : Rat) := by
  have hlog : t.floor.toNat < 2 ^ (t.floor.toNat.log2 + 1) := Nat.lt_log2_self
  have hexp : t.floor.toNat.log2 + 1 ≤ 1 + f.fractionBits + f.scaleAt t := by
    unfold scaleAt
    omega
  have hlt : t.floor < ((2 * f.lead * 2 ^ f.scaleAt t : Nat) : Int) := by
    have hpow := hlog.trans_le (Nat.pow_le_pow_right Nat.two_pos hexp)
    rw [pow_add, pow_add, pow_one, ← lead_eq] at hpow
    omega
  exact_mod_cast Rat.floor_lt_iff.1 hlt

theorem scaleAt_le {top : Nat} {t : Rat} (h : t < ((2 * f.lead * 2 ^ top : Nat) : Rat)) :
    f.scaleAt t ≤ top := by
  have hfloor : t.floor < ((2 * f.lead * 2 ^ top : Nat) : Int) :=
    Rat.floor_lt_iff.2 (by exact_mod_cast h)
  rcases Nat.eq_zero_or_pos t.floor.toNat with hz | hpos
  · simp [scaleAt, hz]
  · have hlt : t.floor.toNat < 2 ^ (f.fractionBits + 1 + top) := by
      rw [pow_add, pow_succ', ← lead_eq]
      omega
    have hlog := (Nat.log2_lt hpos.ne').2 hlt
    unfold scaleAt
    omega

/-- A magnitude less than half a spacing beyond the last one at spacing `2 ^ top` does not round to
a wider spacing. -/
theorem nearestRank_lt {top : Nat} {t : Rat} (ht : 0 ≤ t)
    (h : t < (2 * (f.lead : Rat) - 1 / 2) * 2 ^ top) : f.nearestRank t < (top + 2) * f.lead := by
  have hlead := f.lead_pos
  have hstep : ∀ n : Nat, (0 : Rat) < ((1 <<< n : Nat) : Rat) := by
    intro n
    rw [Nat.one_shiftLeft]
    exact_mod_cast Nat.two_pow_pos n
  have hnonneg : 0 ≤ t / ((1 <<< f.scaleAt t : Nat) : Rat) := div_nonneg ht (hstep _).le
  have hscale : f.scaleAt t ≤ top := by
    refine scaleAt_le (h.trans_le ?_)
    push_cast
    gcongr
    linarith
  rw [nearestRank]
  rcases hscale.lt_or_eq with hlt | heq
  · -- at a narrower spacing even a full row of significands is far enough from the end
    have hle : nearestEven (t / ((1 <<< f.scaleAt t : Nat) : Rat)) ≤ 2 * f.lead := by
      refine nearestEven_le hnonneg ?_
      have := (div_lt_iff₀ (hstep (f.scaleAt t))).2 (by
        have hfull := f.lt_scaleAt t
        rwa [Nat.cast_mul, ← Nat.one_shiftLeft] at hfull)
      linarith
    calc f.scaleAt t * f.lead + _ ≤ f.scaleAt t * f.lead + 2 * f.lead := Nat.add_le_add_left hle _
      _ = (f.scaleAt t + 2) * f.lead := (Nat.add_mul _ _ _).symm
      _ < (top + 2) * f.lead := Nat.mul_lt_mul_of_pos_right (by omega) hlead
  · -- at the widest spacing `t` is nearer to the last significand than to a full row
    have hle : nearestEven (t / ((1 <<< f.scaleAt t : Nat) : Rat)) ≤ 2 * f.lead - 1 := by
      refine nearestEven_le hnonneg ((div_lt_iff₀ (hstep _)).2 ?_)
      rw [heq, Nat.one_shiftLeft, Nat.cast_sub (by omega)]
      push_cast
      refine h.trans_le (le_of_eq ?_)
      ring
    rw [heq] at hle ⊢
    rw [Nat.add_mul]
    omega

/-- The magnitudes at spacings up to `2 ^ top`. -/
theorem units_le {top rank : Nat} (h : rank < (top + 2) * f.lead) :
    f.units rank ≤ (2 * f.lead - 1) * 2 ^ top := by
  have hscale : f.scale rank ≤ top := by
    have := (Nat.div_lt_iff_lt_mul f.lead_pos).2 h
    unfold scale
    omega
  have hsig := f.significand_lt rank
  rw [units_eq]
  exact Nat.mul_le_mul (by omega) (Nat.pow_le_pow_right Nat.two_pos hscale)

end Format

namespace Binary

variable {f : Format}

theorem magnitude_nonneg (f : Format) (rank : Nat) : 0 ≤ magnitude f rank :=
  div_nonneg (by exact_mod_cast Nat.zero_le _) (by exact_mod_cast Nat.zero_le _)

theorem abs_signed (negative : Bool) (x : Rat) : |signed negative x| = |x| := by
  cases negative with
  | false => rfl
  | true => exact abs_neg x

/-- The magnitude of a finite number in units. -/
theorem abs_signed_magnitude (negative : Bool) (rank : Nat) :
    |signed negative (magnitude f rank)| * (f.unitsPerOne : Rat) = f.units rank := by
  rw [abs_signed, abs_of_nonneg (magnitude_nonneg f rank), magnitude_mul_unitsPerOne]

/-- A value in range rounds to a number whose spacing is at most `2 ^ top` units. -/
theorem exists_ofRat_eq {top : Nat} (htop : (top + 2) * f.lead ≤ f.infinityRank) {x : Rat}
    (h : |x| * (f.unitsPerOne : Rat) < (2 * (f.lead : Rat) - 1 / 2) * 2 ^ top) :
    ∃ negative rank, (ofRat x : Binary f) = finite negative rank ∧
      f.units rank ≤ (2 * f.lead - 1) * 2 ^ top := by
  have hunits : (0 : Rat) ≤ (f.unitsPerOne : Rat) := by exact_mod_cast Nat.zero_le _
  have hround : ∀ negative, ∃ rank : Fin f.infinityRank,
      (round negative |x| : Binary f) = finite negative rank ∧
        f.units rank ≤ (2 * f.lead - 1) * 2 ^ top := by
    intro negative
    have hlt := Format.nearestRank_lt (mul_nonneg (abs_nonneg x) hunits) h
    exact ⟨⟨_, hlt.trans_le htop⟩, dif_pos (hlt.trans_le htop), Format.units_le hlt⟩
  rw [ofRat]
  split_ifs with hneg
  · rw [← abs_of_neg hneg]
    exact ⟨true, hround true⟩
  · rw [← abs_of_nonneg (not_lt.1 hneg)]
    exact ⟨false, hround false⟩

/-- A sum is finite when one term is less than half of the widest spacing. -/
theorem isFinite_add {top : Nat} (htop : f.infinityRank = (top + 2) * f.lead) (s t : Bool)
    (a b : Fin f.infinityRank) (h : 2 * f.units a < 2 ^ top) :
    ((finite s a).add (finite t b)).isFinite = true := by
  have hunits : (0 : Rat) ≤ (f.unitsPerOne : Rat) := by exact_mod_cast Nat.zero_le _
  have hb : f.units b ≤ (2 * f.lead - 1) * 2 ^ top := Format.units_le (htop ▸ b.isLt)
  have hrange : |signed s (magnitude f a) + signed t (magnitude f b)| * (f.unitsPerOne : Rat) <
      (2 * (f.lead : Rat) - 1 / 2) * 2 ^ top := by
    have hone : 1 ≤ 2 * f.lead := by have := f.lead_pos; omega
    have hb' : (f.units b : Rat) ≤ (2 * (f.lead : Rat) - 1) * 2 ^ top := by
      have : (f.units b : Rat) ≤ (((2 * f.lead - 1) * 2 ^ top : Nat) : Rat) := by exact_mod_cast hb
      rwa [Nat.cast_mul, Nat.cast_sub hone, Nat.cast_pow, Nat.cast_mul, Nat.cast_two,
        Nat.cast_one] at this
    have ha' : 2 * (f.units a : Rat) < 2 ^ top := by exact_mod_cast h
    calc |signed s (magnitude f a) + signed t (magnitude f b)| * (f.unitsPerOne : Rat)
        ≤ (|signed s (magnitude f a)| + |signed t (magnitude f b)|) * (f.unitsPerOne : Rat) :=
          mul_le_mul_of_nonneg_right (abs_add_le _ _) hunits
      _ = f.units a + f.units b := by
          rw [add_mul, abs_signed_magnitude, abs_signed_magnitude]
      _ < (2 * (f.lead : Rat) - 1 / 2) * 2 ^ top := by linarith
  rw [add]
  split_ifs with hzero
  · -- an exact zero keeps its sign, which `ofRat` would drop
    have hlt : f.nearestRank (0 * (f.unitsPerOne : Rat)) < (top + 2) * f.lead := by
      rw [hzero, abs_zero] at hrange
      exact Format.nearestRank_lt (by rw [zero_mul]) hrange
    rw [round, ofRank, dif_pos (htop ▸ hlt)]
    rfl
  · obtain ⟨negative, rank, heq, -⟩ := exists_ofRat_eq htop.ge hrange
    rw [heq]
    rfl

/-- A 32-bit whole number is finite, and less than half of the widest spacing. -/
theorem exists_ofInt_eq (n : Int32) : ∃ negative rank,
    (ofInt n.toInt : Single) = finite negative rank ∧ 2 * Format.single.units rank < 2 ^ 253 := by
  have hn := abs_toInt_le n
  have hlead : Format.single.lead = 2 ^ 23 := Format.lead_eq _
  have hrange : |(n.toInt : Rat)| * (Format.single.unitsPerOne : Rat) <
      (2 * (Format.single.lead : Rat) - 1 / 2) * 2 ^ 157 := by
    have hone : (Format.single.unitsPerOne : Rat) = 2 ^ 149 := by
      rw [Format.unitsPerOne_eq]
      push_cast
      rfl
    calc |(n.toInt : Rat)| * (Format.single.unitsPerOne : Rat)
        ≤ 2 ^ 31 * 2 ^ 149 := by rw [hone]; gcongr
      _ < (2 * (Format.single.lead : Rat) - 1 / 2) * 2 ^ 157 := by rw [hlead]; norm_num
  obtain ⟨negative, rank, heq, hle⟩ := exists_ofRat_eq (f := .single) (by decide) hrange
  refine ⟨negative, rank, heq, ?_⟩
  rw [hlead] at hle
  omega

end Binary

/-- **The rating of an engine with a finite torque is finite.** -/
theorem Engine.isFinite_rating {e : Engine} (h : e.torque.isFinite = true) :
    e.rating.isFinite = true := by
  obtain ⟨horsepower, torque⟩ := e
  obtain ⟨negative, rank, heq, hlt⟩ := Binary.exists_ofInt_eq horsepower
  cases torque with
  | nan => cases h
  | inf t => cases h
  | finite t b =>
      rw [rating, heq]
      exact Binary.isFinite_add (by decide) negative t rank b hlt

end Paddock
