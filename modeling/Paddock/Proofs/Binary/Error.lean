import Mathlib.Data.Sign.Basic
import Mathlib.Tactic.Positivity
import Paddock.Proofs.Binary.Order

/-!
# Binary — rounding errors

Half a spacing is at most the part `1 / (2 * lead)` of a magnitude that has its leading bit, the
*roundoff* of the format.  So a value that is neither too small nor too large is rounded to one that
differs from it by at most this part of it (`exists_round_eq`), and so are products and quotients
(`Denotes.mul`, `Denotes.div`).  Only a quotient by zero has no value (`Denotes.div_zero`).

`Rounded f d v w` says that `w` is as near to `v` as `d` such roundings in a row can take it.
Roundings add up along a computation (`Rounded.trans`), and exact factors change nothing
(`Rounded.mul_right`), so the error of a computation is a matter of counting its operations.

Which values are neither too small nor too large is a matter of powers of two: `Moderate k` holds of
zero and of what lies between `2 ^ -k` and `2 ^ k`, and each operation adds up the powers.
-/

namespace Paddock

/-! ### The roundoff -/

namespace Format

variable {f : Format} {t : Rat}

theorem unitsPerOne_cast (f : Format) : (f.unitsPerOne : Rat) = 2 ^ f.unitExponent := by
  rw [f.unitsPerOne_eq, Nat.cast_pow, Nat.cast_two]

/-- The part of a value that one rounding can take off it or add to it. -/
def roundoff (f : Format) : Rat := 1 / (2 * (f.lead : Rat))

theorem roundoff_pos (f : Format) : 0 < f.roundoff := by
  have hlead : (0 : Rat) < f.lead := by exact_mod_cast f.lead_pos
  unfold roundoff
  positivity

theorem roundoff_le (f : Format) : f.roundoff ≤ 1 / 2 := by
  have hlead : (1 : Rat) ≤ f.lead := by exact_mod_cast f.lead_pos
  exact one_div_le_one_div_of_le two_pos (by linarith)

/-- A value with its leading bit has it at the spacing that rounding chooses. -/
theorem lead_mul_le (h : (f.lead : Rat) ≤ t) : (f.lead : Rat) * 2 ^ f.scaleAt t ≤ t := by
  have ht : 0 ≤ t := le_trans (by exact_mod_cast Nat.zero_le _) h
  rcases Nat.eq_zero_or_pos (f.scaleAt t) with hzero | hpos
  · rwa [hzero, pow_zero, mul_one]
  · exact_mod_cast lead_le_of_scaleAt_pos ht hpos

/-- Rounding moves by at most half a spacing. -/
theorem abs_units_nearestRank_sub_le (ht : 0 ≤ t) :
    |(f.units (f.nearestRank t) : Rat) - t| ≤ 2 ^ f.scaleAt t / 2 := by
  have hstep : (0 : Rat) < 2 ^ f.scaleAt t := by positivity
  have hhalf : |t / 2 ^ f.scaleAt t - f.stepsAt t| ≤ 1 / 2 := by
    rcases abs_sub_nearestEven (div_nonneg ht hstep.le) with h | ⟨h, -⟩
    · exact h.le
    · exact h.le
  calc |(f.units (f.nearestRank t) : Rat) - t|
      = |t / 2 ^ f.scaleAt t - f.stepsAt t| * 2 ^ f.scaleAt t := by
        rw [f.units_nearestRank ht, abs_sub_comm, ← abs_of_pos hstep, ← abs_mul, sub_mul,
          abs_of_pos hstep, div_mul_cancel₀ _ hstep.ne']
    _ ≤ 1 / 2 * 2 ^ f.scaleAt t := mul_le_mul_of_nonneg_right hhalf hstep.le
    _ = 2 ^ f.scaleAt t / 2 := by ring

/-- **Rounding moves by at most the roundoff** of a value that has its leading bit. -/
theorem abs_units_nearestRank_sub_le_roundoff (h : (f.lead : Rat) ≤ t) :
    |(f.units (f.nearestRank t) : Rat) - t| ≤ f.roundoff * t := by
  have hlead : (0 : Rat) < f.lead := by exact_mod_cast f.lead_pos
  calc |(f.units (f.nearestRank t) : Rat) - t| ≤ 2 ^ f.scaleAt t / 2 :=
        abs_units_nearestRank_sub_le (hlead.le.trans h)
    _ = f.roundoff * (f.lead * 2 ^ f.scaleAt t) := by
        rw [roundoff]
        field_simp
    _ ≤ f.roundoff * t := mul_le_mul_of_nonneg_left (lead_mul_le h) f.roundoff_pos.le

end Format

/-! ### Values of moderate size -/

/-- Zero, or a value whose magnitude lies between `2 ^ -k` and `2 ^ k`. -/
def Moderate (k : Nat) (v : Rat) : Prop := v = 0 ∨ 1 ≤ |v| * 2 ^ k ∧ |v| ≤ 2 ^ k

namespace Moderate

variable {k l : Nat} {v w : Rat}

theorem mono (h : Moderate k v) (hkl : k ≤ l) : Moderate l v := by
  have hpow : (2 : Rat) ^ k ≤ 2 ^ l := pow_le_pow_right₀ one_le_two hkl
  rcases h with rfl | ⟨hlower, hupper⟩
  · exact .inl rfl
  · exact .inr ⟨hlower.trans (mul_le_mul_of_nonneg_left hpow (abs_nonneg v)), hupper.trans hpow⟩

theorem mul (hv : Moderate k v) (hw : Moderate l w) : Moderate (k + l) (v * w) := by
  rcases hv with rfl | ⟨hlower, hupper⟩
  · exact .inl (zero_mul w)
  · rcases hw with rfl | ⟨hlower', hupper'⟩
    · exact .inl (mul_zero v)
    · refine .inr ⟨?_, ?_⟩
      · rw [abs_mul, pow_add, mul_mul_mul_comm]
        exact one_le_mul_of_one_le_of_one_le hlower hlower'
      · rw [abs_mul, pow_add]
        exact mul_le_mul hupper hupper' (abs_nonneg w) (by positivity)

theorem inv (h : Moderate k v) : Moderate k v⁻¹ := by
  rcases h with rfl | ⟨hlower, hupper⟩
  · exact .inl inv_zero
  · have hpos : 0 < |v| := by
      refine abs_pos.2 ?_
      rintro rfl
      rw [abs_zero, zero_mul] at hlower
      exact hlower.not_gt zero_lt_one
    refine .inr ⟨?_, ?_⟩
    · rw [abs_inv, inv_mul_eq_div, one_le_div hpos]
      exact hupper
    · rw [abs_inv, inv_le_iff_one_le_mul₀' hpos]
      exact hlower

theorem div (hv : Moderate k v) (hw : Moderate l w) : Moderate (k + l) (v / w) := by
  rw [div_eq_mul_inv]
  exact hv.mul hw.inv

end Moderate

/-! ### Roundings in a row -/

/-- A value differs from another by no more than `d` roundings in a row can add up to. -/
def Rounded (f : Format) (d : Nat) (v w : Rat) : Prop := |w - v| ≤ ((1 + f.roundoff) ^ d - 1) * |v|

namespace Rounded

variable {f : Format} {d e k : Nat} {u v w : Rat}

theorem one_iff : Rounded f 1 v w ↔ |w - v| ≤ f.roundoff * |v| := by
  rw [Rounded, pow_one, add_sub_cancel_left]

theorem abs_le (h : Rounded f d v w) : |w| ≤ (1 + f.roundoff) ^ d * |v| := by
  have hsum := abs_add_le (w - v) v
  rw [sub_add_cancel] at hsum
  unfold Rounded at h
  linarith

theorem mono (h : Rounded f d v w) (hde : d ≤ e) : Rounded f e v w := by
  have hgrowth : (1 + f.roundoff) ^ d ≤ (1 + f.roundoff) ^ e :=
    pow_le_pow_right₀ (le_add_of_nonneg_right f.roundoff_pos.le) hde
  exact h.trans (mul_le_mul_of_nonneg_right (sub_le_sub_right hgrowth 1) (abs_nonneg v))

/-- **Roundings add up.** -/
theorem trans (huv : Rounded f d u v) (hvw : Rounded f e v w) : Rounded f (d + e) u w := by
  have hgrowth : (1 : Rat) ≤ (1 + f.roundoff) ^ e :=
    one_le_pow₀ (le_add_of_nonneg_right f.roundoff_pos.le)
  have hv := mul_le_mul_of_nonneg_left huv.abs_le (sub_nonneg.2 hgrowth)
  have hsum := abs_sub_le w v u
  unfold Rounded at huv hvw ⊢
  calc |w - u| ≤ ((1 + f.roundoff) ^ e - 1) * ((1 + f.roundoff) ^ d * |u|) +
        ((1 + f.roundoff) ^ d - 1) * |u| := by linarith
    _ = ((1 + f.roundoff) ^ (d + e) - 1) * |u| := by
        rw [pow_add]
        ring

/-- An exact factor changes nothing. -/
theorem mul_right (h : Rounded f d v w) (c : Rat) : Rounded f d (v * c) (w * c) := by
  unfold Rounded at h ⊢
  rw [← sub_mul, abs_mul, abs_mul, ← mul_assoc]
  exact mul_le_mul_of_nonneg_right h (abs_nonneg c)

/-- The other factor may be the one that is rounded. -/
theorem mul_left (h : Rounded f d v w) (c : Rat) : Rounded f d (c * v) (c * w) := by
  rw [mul_comm c v, mul_comm c w]
  exact h.mul_right c

/-- A few roundings change no sign. -/
theorem sign_eq (h : Rounded f d v w) (hd : (1 + f.roundoff) ^ d < 2) :
    SignType.sign w = SignType.sign v := by
  unfold Rounded at h
  rcases lt_trichotomy v 0 with hv | rfl | hv
  · have hw : w < 0 := by
      rw [abs_of_neg hv] at h
      have hle := (le_abs_self _).trans h
      have hleft := mul_neg_of_pos_of_neg (sub_pos.2 hd) hv
      linarith
    rw [sign_neg hv, sign_neg hw]
  · rw [abs_zero, mul_zero, sub_zero] at h
    rw [abs_nonpos_iff.1 h]
  · have hw : 0 < w := by
      rw [abs_of_pos hv] at h
      have hle := (neg_le_abs _).trans h
      have hleft := mul_pos (sub_pos.2 hd) hv
      linarith
    rw [sign_pos hv, sign_pos hw]

/-- A rounding changes a value by a factor of two at most. -/
theorem moderate (h : Rounded f 1 v w) (hv : Moderate k v) : Moderate (k + 1) w := by
  rw [one_iff] at h
  rcases hv with rfl | ⟨hlower, hupper⟩
  · rw [abs_zero, mul_zero, sub_zero] at h
    exact .inl (abs_nonpos_iff.1 h)
  · have hhalf : |w - v| ≤ 1 / 2 * |v| :=
      h.trans (mul_le_mul_of_nonneg_right f.roundoff_le (abs_nonneg v))
    have hle := abs_sub_abs_le_abs_sub w v
    have hge := abs_sub_abs_le_abs_sub v w
    rw [abs_sub_comm v w] at hge
    refine .inr ⟨?_, ?_⟩
    · have hscaled : |v| / 2 * 2 ^ (k + 1) ≤ |w| * 2 ^ (k + 1) := by
        refine mul_le_mul_of_nonneg_right ?_ (by positivity)
        linarith
      calc (1 : Rat) ≤ |v| * 2 ^ k := hlower
        _ = |v| / 2 * 2 ^ (k + 1) := by rw [pow_succ]; ring
        _ ≤ |w| * 2 ^ (k + 1) := hscaled
    · rw [pow_succ]
      linarith

end Rounded

/-! ### Rounding once -/

/-- Values from `2 ^ -k` up to `2 ^ k` have their leading bit and do not overflow. -/
structure Format.Admits (f : Format) (k : Nat) : Prop where
  lower : f.fractionBits + k ≤ f.unitExponent
  upper : (k + (f.unitExponent - f.fractionBits) + 2) * f.lead ≤ f.infinityRank

namespace Format.Admits

variable {f : Format} {k : Nat} {v : Rat}

/-- A value from `2 ^ -k` on has its leading bit. -/
theorem lead_le (hf : f.Admits k) (hv : 0 ≤ v) (h : 1 ≤ v * 2 ^ k) :
    (f.lead : Rat) ≤ v * f.unitsPerOne := by
  calc (f.lead : Rat) = 2 ^ f.fractionBits := by rw [f.lead_eq, Nat.cast_pow, Nat.cast_two]
    _ ≤ v * 2 ^ k * 2 ^ f.fractionBits := le_mul_of_one_le_left (by positivity) h
    _ = v * 2 ^ (f.fractionBits + k) := by rw [pow_add]; ring
    _ ≤ v * f.unitsPerOne := by
        rw [unitsPerOne_cast]
        exact mul_le_mul_of_nonneg_left (pow_le_pow_right₀ one_le_two hf.lower) hv

/-- A value up to `2 ^ k` does not overflow. -/
theorem nearestRank_lt (hf : f.Admits k) (hv : 0 ≤ v) (h : v ≤ 2 ^ k) :
    f.nearestRank (v * f.unitsPerOne) < f.infinityRank := by
  obtain ⟨top, htop⟩ : ∃ top, top = k + (f.unitExponent - f.fractionBits) := ⟨_, rfl⟩
  have hexp : k + f.unitExponent = f.fractionBits + top := by
    have := hf.lower
    omega
  have hlead : (1 : Rat) ≤ f.lead := by exact_mod_cast f.lead_pos
  have hone : (0 : Rat) ≤ f.unitsPerOne := by exact_mod_cast Nat.zero_le _
  have hrange : v * f.unitsPerOne < (2 * (f.lead : Rat) - 1 / 2) * 2 ^ top := by
    calc v * f.unitsPerOne ≤ 2 ^ k * 2 ^ f.unitExponent := by
          rw [unitsPerOne_cast]
          exact mul_le_mul_of_nonneg_right h (by positivity)
      _ = f.lead * 2 ^ top := by
          rw [← pow_add, hexp, pow_add, f.lead_eq, Nat.cast_pow, Nat.cast_two]
      _ < (2 * (f.lead : Rat) - 1 / 2) * 2 ^ top := by
          refine mul_lt_mul_of_pos_right ?_ (by positivity)
          linarith
  have hupper := hf.upper
  rw [← htop] at hupper
  exact (Format.nearestRank_lt (mul_nonneg hv hone) hrange).trans_le hupper

end Format.Admits

namespace Binary

variable {f : Format} {x y : Binary f} {s t negative : Bool} {k : Nat} {a b v w : Rat}

theorem magnitude_sub_eq (f : Format) (rank : Nat) (v : Rat) :
    magnitude f rank - v = (f.units rank - v * f.unitsPerOne) / f.unitsPerOne := by
  have hone : (f.unitsPerOne : Rat) ≠ 0 := by exact_mod_cast f.unitsPerOne_pos.ne'
  rw [magnitude, sub_div, mul_div_cancel_right₀ _ hone]

/-- **A value of moderate size is rounded with a small error.** -/
theorem exists_round_eq (hf : f.Admits k) (hv : 0 ≤ v) (h : Moderate k v) (negative : Bool) :
    ∃ rank, (round negative v : Binary f) = finite negative rank ∧
      Rounded f 1 v (magnitude f rank) := by
  rcases h with rfl | ⟨hlower, hupper⟩
  · have hpos : 0 < f.infinityRank := (Nat.mul_pos (Nat.succ_pos _) f.lead_pos).trans_le hf.upper
    refine ⟨⟨0, hpos⟩, ?_, ?_⟩
    · rw [round, zero_mul, Format.nearestRank_zero, ofRank, dif_pos hpos]
    · rw [Rounded.one_iff, magnitude_zero, sub_zero, abs_zero, mul_zero]
  · have hone : (0 : Rat) < f.unitsPerOne := by exact_mod_cast f.unitsPerOne_pos
    rw [abs_of_nonneg hv] at hlower hupper
    have hlt := hf.nearestRank_lt hv hupper
    refine ⟨⟨_, hlt⟩, by rw [round, ofRank, dif_pos hlt], ?_⟩
    rw [Rounded.one_iff, magnitude_sub_eq, abs_div, abs_of_pos hone, abs_of_nonneg hv,
      div_le_iff₀ hone, mul_assoc]
    exact Format.abs_units_nearestRank_sub_le_roundoff (hf.lead_le hv hlower)

/-! ### Numbers and their values -/

/-- A number is finite, with a sign bit and an exact value. -/
def Denotes (x : Binary f) (negative : Bool) (v : Rat) : Prop :=
  ∃ rank, x = finite negative rank ∧ v = signed negative (magnitude f rank)

theorem Denotes.toRat?_eq (h : Denotes x negative v) : x.toRat? = some v := by
  obtain ⟨rank, rfl, rfl⟩ := h
  rfl

theorem Denotes.msb_toBits (h : Denotes x negative v) : x.toBits.msb = negative := by
  obtain ⟨rank, rfl, rfl⟩ := h
  exact msb_pattern negative rank

theorem signed_xor (s t : Bool) (v w : Rat) :
    signed (s ^^ t) (v * w) = signed s v * signed t w := by
  cases s <;> cases t <;> simp [signed]

theorem rounded_signed (h : Rounded f 1 v w) (negative : Bool) :
    Rounded f 1 (signed negative v) (signed negative w) := by
  rw [Rounded.one_iff] at h ⊢
  rwa [abs_signed_sub_signed, abs_signed]

/-- A rounded magnitude with a sign denotes the signed value up to one rounding. -/
theorem exists_denotes_round (hf : f.Admits k) (hv : 0 ≤ v) (h : Moderate k v) (negative : Bool) :
    ∃ w, Denotes (round negative v : Binary f) negative w ∧
      Rounded f 1 (signed negative v) w := by
  obtain ⟨rank, heq, hrounded⟩ := exists_round_eq hf hv h negative
  exact ⟨_, ⟨rank, heq, rfl⟩, rounded_signed hrounded negative⟩

theorem moderate_signed_iff (negative : Bool) : Moderate k (signed negative v) ↔ Moderate k v := by
  cases negative <;> simp [Moderate, signed]

theorem signed_magnitude_eq_zero_iff (negative : Bool) (rank : Nat) :
    signed negative (magnitude f rank) = 0 ↔ rank = 0 := by
  rw [← abs_eq_zero, abs_signed, abs_eq_zero, ← magnitude_zero f,
    (magnitude_strictMono f).injective.eq_iff]

/-- **A product is rounded once.** -/
theorem Denotes.mul (hf : f.Admits k) (hx : Denotes x s a) (hy : Denotes y t b)
    (h : Moderate k (a * b)) :
    ∃ w, Denotes (x.mul y) (s ^^ t) w ∧ Rounded f 1 (a * b) w := by
  obtain ⟨rank, rfl, rfl⟩ := hx
  obtain ⟨rank', rfl, rfl⟩ := hy
  rw [← signed_xor] at h ⊢
  exact exists_denotes_round hf (mul_nonneg (magnitude_nonneg f _) (magnitude_nonneg f _))
    ((moderate_signed_iff (s ^^ t)).1 h) (s ^^ t)

/-- **A quotient is rounded once,** unless it is one by zero. -/
theorem Denotes.div (hf : f.Admits k) (hx : Denotes x s a) (hy : Denotes y t b) (hb : b ≠ 0)
    (h : Moderate k (a / b)) :
    ∃ w, Denotes (x.div y) (s ^^ t) w ∧ Rounded f 1 (a / b) w := by
  obtain ⟨rank, rfl, rfl⟩ := hx
  obtain ⟨rank', rfl, rfl⟩ := hy
  have hne : rank'.val ≠ 0 := mt (signed_magnitude_eq_zero_iff t _).2 hb
  have hsigned : signed s (magnitude f rank) / signed t (magnitude f rank') =
      signed (s ^^ t) (magnitude f rank / magnitude f rank') := by
    cases s <;> cases t <;> simp [signed, div_neg, neg_div]
  rw [hsigned] at h ⊢
  rw [Binary.div, if_neg hne]
  exact exists_denotes_round hf (div_nonneg (magnitude_nonneg f _) (magnitude_nonneg f _))
    ((moderate_signed_iff (s ^^ t)).1 h) (s ^^ t)

/-- **A quotient by zero** is NaN for zero and an infinity for everything else. -/
theorem Denotes.div_zero (hx : Denotes x s a) (hy : Denotes y t 0) :
    x.div y = if a = 0 then nan else inf (s ^^ t) := by
  obtain ⟨rank, rfl, rfl⟩ := hx
  obtain ⟨rank', rfl, hzero⟩ := hy
  rw [Binary.div, if_pos ((signed_magnitude_eq_zero_iff t _).1 hzero.symm)]
  simp only [signed_magnitude_eq_zero_iff]

/-- An exact value of moderate size is rounded once. -/
theorem exists_denotes_ofRat (hf : f.Admits k) (h : Moderate k v) :
    ∃ w, Denotes (ofRat v : Binary f) (decide (v < 0)) w ∧ Rounded f 1 v w := by
  have hsigned : signed (decide (v < 0)) |v| = v := by
    rcases lt_or_ge v 0 with hneg | hpos
    · rw [decide_eq_true hneg, signed, if_pos rfl, abs_of_neg hneg, neg_neg]
    · rw [decide_eq_false hpos.not_gt, signed, if_neg Bool.false_ne_true, abs_of_nonneg hpos]
  have hround : (ofRat v : Binary f) = round (decide (v < 0)) |v| := by
    rw [ofRat]
    split_ifs with hneg
    · rw [decide_eq_true hneg, abs_of_neg hneg]
    · rw [decide_eq_false hneg, abs_of_nonneg (not_lt.1 hneg)]
  have habs : Moderate k |v| := by
    rwa [← moderate_signed_iff (decide (v < 0)), hsigned]
  have hdenotes := exists_denotes_round hf (abs_nonneg v) habs (decide (v < 0))
  rwa [← hround, hsigned] at hdenotes

/-- A whole number of few enough digits is not rounded. -/
theorem denotes_ofInt (hrange : (f.unitExponent + 3) * f.lead ≤ f.infinityRank) {n : Int}
    (h : n.natAbs ≤ 2 * f.lead) : Denotes (ofInt n : Binary f) (decide (n < 0)) n := by
  obtain ⟨rank, heq, hn⟩ := exists_ofInt_eq_finite hrange h
  exact ⟨rank, heq, hn.symm⟩

end Binary

end Paddock
