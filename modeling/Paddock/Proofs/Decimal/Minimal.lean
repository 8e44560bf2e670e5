import Mathlib.Algebra.Order.Field.Power
import Paddock.Proofs.Binary.Nearest
import Paddock.Proofs.Decimal.Reader

/-!
# Decimal — no shorter decimal reads back

`significantDigits` counts the digits of a decimal without the zeros at its end.  It is a property
of the value: a decimal has at most `n` significant digits exactly if it is `c * 10 ^ k` with
`c < 10 ^ n` (`significantDigits_le_iff`).

A magnitude has two neighbours on a decimal grid, and no decimal with as few digits as the grid
allows lies between them (`toRat_le_or_le`).  Rounding is monotone, so when such a decimal rounds to
the magnitude, the neighbour on its side does too.  The search from the coarsest grid on therefore
misses nothing, and what it finds is `IsShortest`: it rounds to the magnitude, no decimal with fewer
digits does, and none with as many is nearer (`isShortest_shortest`).
-/

namespace Paddock

/-! ### The digits of a whole number -/

theorem length_digitsOf_le_iff {n k : Nat} (hk : 0 < k) :
    (digitsOf n).length ≤ k ↔ n < 10 ^ k := Nat.length_toDigits_le_iff (by decide) hk

theorem length_digitsOf_pos (n : Nat) : 0 < (digitsOf n).length := Nat.length_toDigits_pos

theorem lt_pow_length_digitsOf (n : Nat) : n < 10 ^ (digitsOf n).length :=
  (length_digitsOf_le_iff (length_digitsOf_pos n)).1 le_rfl

/-- A positive number is at least the power of ten of its leading digit. -/
theorem pow_length_digitsOf_le {n : Nat} (hn : 0 < n) : 10 ^ ((digitsOf n).length - 1) ≤ n := by
  have hpos := length_digitsOf_pos n
  rcases Nat.eq_zero_or_pos ((digitsOf n).length - 1) with h | h
  · rw [h]
    exact hn
  · have := mt (length_digitsOf_le_iff (n := n) h).2 (by omega)
    omega

theorem digitsOf_mul_ten {n : Nat} (hn : 0 < n) : digitsOf (n * 10) = digitsOf n ++ ['0'] := by
  rw [digitsOf, Nat.toDigits_of_base_le (by decide) (by omega), Nat.mul_div_cancel _ (by decide),
    Nat.mul_mod_left]
  rfl

namespace Decimal

theorem trailingZeros_mul_ten {n : Nat} (hn : 0 < n) :
    trailingZeros (n * 10) = trailingZeros n + 1 := by
  simp [trailingZeros, digitsOf_mul_ten hn]

theorem trailingZeros_of_mod_ne {n : Nat} (h : n % 10 ≠ 0) : trailingZeros n = 0 := by
  obtain ⟨front, hfront⟩ : ∃ front, digitsOf n = front ++ [Nat.digitChar (n % 10)] := by
    by_cases hn : n < 10
    · exact ⟨[], by rw [digitsOf, Nat.toDigits_of_lt_base hn, Nat.mod_eq_of_lt hn]; rfl⟩
    · exact ⟨_, Nat.toDigits_of_base_le (by decide) (by omega)⟩
  simp [trailingZeros, hfront, h]

/-- A positive number without its zeros at the end: what is left ends in another digit, and its
digits are those that remain. -/
theorem exists_eq_mul_pow {n : Nat} (hn : 0 < n) :
    ∃ m, n = m * 10 ^ trailingZeros n ∧ m % 10 ≠ 0 ∧
      (digitsOf n).length = (digitsOf m).length + trailingZeros n := by
  induction n using Nat.strongRecOn with
  | _ n ih =>
      by_cases h : n % 10 = 0
      · obtain ⟨k, rfl⟩ : ∃ k, n = k * 10 := ⟨n / 10, by omega⟩
        obtain ⟨m, hm, hmod, hlength⟩ := ih k (by omega) (by omega)
        have hk : 0 < k := by omega
        refine ⟨m, ?_, hmod, ?_⟩
        · rw [trailingZeros_mul_ten hk, pow_succ, ← Nat.mul_assoc, ← hm]
        · rw [trailingZeros_mul_ten hk, digitsOf_mul_ten hk, List.length_append, hlength]
          rfl
      · refine ⟨n, ?_, h, ?_⟩
        · rw [trailingZeros_of_mod_ne h, pow_zero, mul_one]
        · rw [trailingZeros_of_mod_ne h, Nat.add_zero]

/-! ### Significant digits -/

/-- The number of digits without the zeros at the end; zero has none. -/
def significantDigits (d : Decimal) : Nat := d.digits.length - trailingZeros d.coefficient

theorem toRat_nonneg (d : Decimal) : 0 ≤ d.toRat :=
  mul_nonneg (by exact_mod_cast Nat.zero_le _) (zpow_nonneg (by norm_num) _)

/-- Of two ways to write a value, the one with the lesser power of ten has the zeros. -/
theorem eq_mul_pow_of_zpow_eq {m c : Nat} {a b : Int} (hab : b ≤ a)
    (h : (m : Rat) * 10 ^ a = c * 10 ^ b) : c = m * 10 ^ (a - b).toNat := by
  have hten : (10 : Rat) ^ a = 10 ^ (a - b).toNat * 10 ^ b := by
    rw [← zpow_natCast, ← zpow_add₀ (by norm_num), Int.toNat_of_nonneg (by omega)]
    congr 1
    omega
  have hne : (10 : Rat) ^ b ≠ 0 := zpow_ne_zero _ (by norm_num)
  rw [hten, ← mul_assoc] at h
  exact_mod_cast (mul_right_cancel₀ hne h).symm

/-- **Significant digits are a matter of the value.** -/
theorem significantDigits_le_iff {d : Decimal} {n : Nat} :
    d.significantDigits ≤ n ↔ ∃ (c : Nat) (k : Int), c < 10 ^ n ∧ d.toRat = c * 10 ^ k := by
  rcases Nat.eq_zero_or_pos d.coefficient with hzero | hpos
  · have hdigits : d.significantDigits = 0 := by
      rw [significantDigits, digits, hzero]
      rfl
    have hvalue : d.toRat = 0 := by rw [toRat, hzero, Nat.cast_zero, zero_mul]
    rw [hdigits, hvalue]
    exact ⟨fun _ => ⟨0, 0, Nat.pow_pos (by decide), by norm_num⟩, fun _ => Nat.zero_le n⟩
  · obtain ⟨m, hm, hmod, hlength⟩ := exists_eq_mul_pow hpos
    have hdigits : d.significantDigits = (digitsOf m).length := by
      rw [significantDigits, digits, hlength, Nat.add_sub_cancel]
    have hvalue : d.toRat = m * 10 ^ (d.exponent + (trailingZeros d.coefficient : Int)) := by
      rw [toRat, zpow_add₀ (by norm_num), zpow_natCast]
      conv_lhs => rw [hm]
      push_cast
      ring
    rw [hdigits, hvalue]
    constructor
    · intro hn
      have hk : 0 < n := (length_digitsOf_pos m).trans_le hn
      exact ⟨m, _, (length_digitsOf_le_iff hk).1 hn, rfl⟩
    · rintro ⟨c, k, hc, heq⟩
      have hlt : m < 10 ^ n := by
        rcases le_or_gt k (d.exponent + (trailingZeros d.coefficient : Int)) with hle | hgt
        · rw [eq_mul_pow_of_zpow_eq hle heq] at hc
          exact (Nat.le_mul_of_pos_right m (Nat.pow_pos (by decide))).trans_lt hc
        · -- a greater power of ten would leave `m` with a zero at its end
          obtain ⟨j, hj⟩ : ∃ j, (k - (d.exponent + (trailingZeros d.coefficient : Int))).toNat =
              j + 1 := ⟨_, (Nat.succ_pred_eq_of_pos (by omega)).symm⟩
          have := eq_mul_pow_of_zpow_eq hgt.le heq.symm
          rw [hj, pow_succ, ← Nat.mul_assoc] at this
          exact absurd (this ▸ Nat.mul_mod_left _ _) hmod
      have hn : 0 < n := by
        refine Nat.pos_of_ne_zero fun h => hmod ?_
        rw [h, pow_zero] at hlt
        omega
      exact (length_digitsOf_le_iff hn).2 hlt

theorem significantDigits_congr {d e : Decimal} (h : d.toRat = e.toRat) :
    d.significantDigits = e.significantDigits :=
  le_antisymm (significantDigits_le_iff.2 (h ▸ significantDigits_le_iff.1 le_rfl))
    (significantDigits_le_iff.2 (h ▸ significantDigits_le_iff.1 le_rfl))

/-- Only zero has no significant digit. -/
theorem toRat_eq_zero_of_significantDigits {d : Decimal} (h : d.significantDigits = 0) :
    d.toRat = 0 := by
  obtain ⟨c, k, hc, hvalue⟩ := significantDigits_le_iff.1 h.le
  obtain rfl : c = 0 := by rwa [pow_zero, Nat.lt_one_iff] at hc
  rw [hvalue, Nat.cast_zero, zero_mul]

/-! ### The two neighbours on a grid -/

variable {f : Format} {rank cut : Nat} {d e : Decimal}

/-- The number of digits of a magnitude written out. -/
def exactDigits (f : Format) (rank : Nat) : Nat := (digitsOf (exactCoefficient f rank)).length

/-- The neighbour of a magnitude below it, or the magnitude itself. -/
def lower (f : Format) (rank cut : Nat) : Decimal :=
  onGrid f cut (exactCoefficient f rank / tenTo cut)

/-- The neighbour of a magnitude above it. -/
def upper (f : Format) (rank cut : Nat) : Decimal :=
  onGrid f cut (exactCoefficient f rank / tenTo cut + 1)

theorem tenTo_pos (n : Nat) : 0 < tenTo n := Nat.pow_pos (by decide)

/-- A point of a grid in steps of the finest one. -/
theorem toRat_onGrid (f : Format) (cut c : Nat) :
    (onGrid f cut c).toRat = ((c * tenTo cut : Nat) : Rat) * 10 ^ (-(f.unitExponent : Int)) := by
  have hten : ((tenTo cut : Nat) : Rat) = 10 ^ cut := by exact_mod_cast rfl
  rw [toRat, onGrid, sub_eq_add_neg, zpow_add₀ (by norm_num), zpow_natCast, Nat.cast_mul, hten]
  ring

/-- The magnitude itself is a point of the finest grid. -/
theorem toRat_exact (f : Format) (rank : Nat) :
    (onGrid f 0 (exactCoefficient f rank)).toRat = Binary.magnitude f rank := by
  have hone : (f.unitsPerOne : Rat) ≠ 0 := by exact_mod_cast f.unitsPerOne_pos.ne'
  refine mul_right_cancel₀ hone ?_
  rw [toRat_onGrid_exact, Binary.magnitude_mul_unitsPerOne]

theorem magnitude_eq (f : Format) (rank : Nat) :
    Binary.magnitude f rank =
      (exactCoefficient f rank : Rat) * 10 ^ (-(f.unitExponent : Int)) := by
  rw [← toRat_exact, toRat_onGrid, show tenTo 0 = 1 from rfl, Nat.mul_one]

theorem step_pos (f : Format) : (0 : Rat) < 10 ^ (-(f.unitExponent : Int)) :=
  zpow_pos (by norm_num) _

/-- How far the neighbour below is. -/
theorem magnitude_sub_lower (f : Format) (rank cut : Nat) :
    Binary.magnitude f rank - (lower f rank cut).toRat =
      ((exactCoefficient f rank % tenTo cut : Nat) : Rat) * 10 ^ (-(f.unitExponent : Int)) := by
  have hsplit := congrArg (Nat.cast (R := Rat)) (Nat.div_add_mod' (exactCoefficient f rank)
    (tenTo cut))
  push_cast at hsplit
  rw [magnitude_eq, lower, toRat_onGrid]
  push_cast
  rw [← sub_mul]
  congr 1
  linarith

/-- The neighbours are one step of the grid apart. -/
theorem upper_sub_lower (f : Format) (rank cut : Nat) :
    (upper f rank cut).toRat - (lower f rank cut).toRat =
      (tenTo cut : Rat) * 10 ^ (-(f.unitExponent : Int)) := by
  rw [upper, lower, toRat_onGrid, toRat_onGrid]
  push_cast
  ring

theorem lower_le_magnitude (f : Format) (rank cut : Nat) :
    (lower f rank cut).toRat ≤ Binary.magnitude f rank := by
  rw [← sub_nonneg, magnitude_sub_lower]
  exact mul_nonneg (by exact_mod_cast Nat.zero_le _) (step_pos f).le

theorem magnitude_lt_upper (f : Format) (rank cut : Nat) :
    Binary.magnitude f rank < (upper f rank cut).toRat := by
  have hlt : ((exactCoefficient f rank % tenTo cut : Nat) : Rat) < (tenTo cut : Rat) := by
    exact_mod_cast Nat.mod_lt _ (tenTo_pos cut)
  have hstep := mul_lt_mul_of_pos_right hlt (step_pos f)
  have hlower := magnitude_sub_lower f rank cut
  have hupper := upper_sub_lower f rank cut
  linarith

/-- **No decimal with few digits lies between the neighbours.**  At a power of ten as coarse as the
grid it is a point of the grid; at a finer one its few digits do not reach the leading digit of the
magnitude. -/
theorem toRat_le_or_le (hrank : 0 < exactCoefficient f rank) (hcut : cut < exactDigits f rank)
    (hd : d.significantDigits ≤ exactDigits f rank - cut) :
    d.toRat ≤ (lower f rank cut).toRat ∨ (upper f rank cut).toRat ≤ d.toRat := by
  obtain ⟨c, k, hc, hvalue⟩ := significantDigits_le_iff.1 hd
  have hgrid : (0 : Rat) < 10 ^ ((cut : Int) - (f.unitExponent : Int)) := zpow_pos (by norm_num) _
  rcases le_or_gt ((cut : Int) - (f.unitExponent : Int)) k with hle | hgt
  · have hpoint : d.toRat = ((c * 10 ^ (k - ((cut : Int) - f.unitExponent)).toNat : Nat) : Rat) *
        10 ^ ((cut : Int) - (f.unitExponent : Int)) := by
      rw [hvalue, Nat.cast_mul, Nat.cast_pow, mul_assoc, ← zpow_natCast, Nat.cast_ofNat,
        ← zpow_add₀ (by norm_num), Int.toNat_of_nonneg (by omega)]
      congr 2
      omega
    rw [hpoint]
    rcases Nat.lt_or_ge (exactCoefficient f rank / tenTo cut)
      (c * 10 ^ (k - ((cut : Int) - f.unitExponent)).toNat) with h | h
    · exact .inr (mul_le_mul_of_nonneg_right (by exact_mod_cast h) hgrid.le)
    · exact .inl (mul_le_mul_of_nonneg_right (by exact_mod_cast h) hgrid.le)
  · left
    obtain ⟨n, hn⟩ : ∃ n, exactDigits f rank - cut = n + 1 :=
      ⟨_, (Nat.succ_pred_eq_of_pos (Nat.sub_pos_of_lt hcut)).symm⟩
    have hlead : 10 ^ n ≤ exactCoefficient f rank / tenTo cut := by
      have hpow := pow_length_digitsOf_le hrank
      rw [show (digitsOf (exactCoefficient f rank)).length - 1 = n + cut by
        unfold exactDigits at hn; omega, pow_add] at hpow
      exact (Nat.le_div_iff_mul_le (tenTo_pos cut)).2 hpow
    calc d.toRat ≤ ((10 ^ (n + 1) : Nat) : Rat) * 10 ^ k := by
          rw [hvalue, ← hn]
          exact mul_le_mul_of_nonneg_right (by exact_mod_cast hc.le) (zpow_nonneg (by norm_num) _)
      _ = ((10 ^ n : Nat) : Rat) * 10 ^ (k + 1) := by
          rw [zpow_add_one₀ (by norm_num)]
          push_cast
          ring
      _ ≤ ((10 ^ n : Nat) : Rat) * 10 ^ ((cut : Int) - (f.unitExponent : Int)) := by
          gcongr
          · norm_num
          · omega
      _ ≤ (lower f rank cut).toRat :=
          mul_le_mul_of_nonneg_right (by exact_mod_cast hlead) hgrid.le

/-! ### The search misses nothing -/

theorem readsBack_iff (hf : 0 < f.fractionBits) :
    ReadsBack f rank d ↔ IsNearest (Binary.magnitude f) d.toRat rank :=
  Format.nearestRank_eq_iff hf d.toRat_nonneg

/-- A greater decimal does not round to a lesser magnitude. -/
theorem ReadsBack.rank_le (hf : 0 < f.fractionBits) {r s : Nat} (hd : ReadsBack f r d)
    (he : ReadsBack f s e) (h : d.toRat ≤ e.toRat) : r ≤ s := by
  have hone : (0 : Rat) ≤ (f.unitsPerOne : Rat) := by exact_mod_cast Nat.zero_le _
  rw [ReadsBack] at hd he
  rw [← hd, ← he]
  exact Format.nearestRank_mono hf (mul_nonneg d.toRat_nonneg hone)
    (mul_le_mul_of_nonneg_right h hone)

/-- What lies between a decimal that reads back and the magnitude reads back. -/
theorem ReadsBack.between (hf : 0 < f.fractionBits) (hd : ReadsBack f rank d)
    (h : d.toRat ≤ e.toRat ∧ e.toRat ≤ Binary.magnitude f rank ∨
      Binary.magnitude f rank ≤ e.toRat ∧ e.toRat ≤ d.toRat) : ReadsBack f rank e := by
  have hself := readsBack_firstHit f rank 0
  have he : ReadsBack f (f.nearestRank (e.toRat * (f.unitsPerOne : Rat))) e := rfl
  rw [← toRat_exact] at h
  rcases h with ⟨hde, hem⟩ | ⟨hme, hed⟩
  · exact le_antisymm (he.rank_le hf hself hem) (hd.rank_le hf he hde)
  · exact le_antisymm (he.rank_le hf hd hed) (hself.rank_le hf he hme)

/-- Only a decimal other than zero rounds to a magnitude other than zero. -/
theorem significantDigits_pos (hrank : 0 < rank) (he : ReadsBack f rank e) :
    0 < e.significantDigits := by
  refine Nat.pos_of_ne_zero fun hzero => hrank.ne ?_
  rw [ReadsBack, toRat_eq_zero_of_significantDigits hzero, zero_mul, f.nearestRank_zero] at he
  exact he

/-- What the choice between the neighbours comes to. -/
theorem neighbour?_eq_some (h : neighbour? f rank cut = some d) :
    d = lower f rank cut ∧ (ReadsBack f rank (upper f rank cut) →
        2 * (exactCoefficient f rank % tenTo cut) < tenTo cut) ∨
      d = upper f rank cut ∧ (ReadsBack f rank (lower f rank cut) →
        tenTo cut ≤ 2 * (exactCoefficient f rank % tenTo cut)) := by
  simp only [neighbour?] at h
  split_ifs at h with hlower hboth hupper
  · exact .inr ⟨(Option.some.inj h).symm, fun _ => hboth.2⟩
  · exact .inl ⟨(Option.some.inj h).symm, fun hup => Nat.lt_of_not_le fun hle => hboth ⟨hup, hle⟩⟩
  · exact .inr ⟨(Option.some.inj h).symm, fun hlow => absurd hlow hlower⟩

theorem isSome_neighbour? (h : ReadsBack f rank (lower f rank cut) ∨
    ReadsBack f rank (upper f rank cut)) : (neighbour? f rank cut).isSome = true := by
  simp only [neighbour?]
  split_ifs with hlower hboth hupper
  · rfl
  · rfl
  · rfl
  · exact absurd h (not_or.2 ⟨hlower, hupper⟩)

/-- On the finest grid the magnitude is its own neighbour. -/
theorem neighbour?_zero (f : Format) (rank : Nat) :
    neighbour? f rank 0 = some (onGrid f 0 (exactCoefficient f rank)) := by
  have hread := readsBack_firstHit f rank 0
  rw [firstHit] at hread
  have hone : tenTo 0 = 1 := rfl
  simp [neighbour?, hone, hread, Nat.mod_one]

/-- The search stops at the first grid with a hit. -/
theorem firstHit_eq (f : Format) (rank : Nat) : ∀ top, ∃ cut ≤ top,
    neighbour? f rank cut = some (firstHit f rank top) ∧
      ∀ coarser, cut < coarser → coarser ≤ top → neighbour? f rank coarser = none
  | 0 => ⟨0, le_rfl, neighbour?_zero f rank, fun _ hlt hle => absurd hle (Nat.not_le.2 hlt)⟩
  | top + 1 => by
      rw [firstHit]
      split
      · rename_i d hd
        exact ⟨top + 1, le_rfl, hd, fun _ hlt hle => absurd hle (Nat.not_le.2 hlt)⟩
      · rename_i hnone
        obtain ⟨cut, hle, hhit, hmiss⟩ := firstHit_eq f rank top
        refine ⟨cut, by omega, hhit, fun coarser hlt hle' => ?_⟩
        rcases Nat.lt_or_eq_of_le hle' with h | rfl
        · exact hmiss coarser hlt (by omega)
        · exact hnone

/-- A hit has no more digits than its grid allows. -/
theorem significantDigits_neighbour (hcut : cut < exactDigits f rank)
    (h : neighbour? f rank cut = some d) : d.significantDigits ≤ exactDigits f rank - cut := by
  have hbelow : exactCoefficient f rank / tenTo cut < 10 ^ (exactDigits f rank - cut) := by
    rw [Nat.div_lt_iff_lt_mul (tenTo_pos cut), tenTo, Nat.pow_eq, ← pow_add,
      Nat.sub_add_cancel hcut.le]
    exact lt_pow_length_digitsOf _
  rcases neighbour?_eq_some h with ⟨rfl, -⟩ | ⟨rfl, -⟩
  · exact significantDigits_le_iff.2 ⟨_, _, hbelow, rfl⟩
  · rcases Nat.lt_or_eq_of_le hbelow with hlt | heq
    · exact significantDigits_le_iff.2 ⟨_, _, hlt, rfl⟩
    · -- the neighbour above is a power of ten
      refine significantDigits_le_iff.2 ⟨1, (exactDigits f rank - cut : Nat) +
        ((cut : Int) - f.unitExponent), Nat.one_lt_pow (by omega) (by decide), ?_⟩
      rw [upper, toRat, onGrid, zpow_add₀ (by norm_num), zpow_natCast, Nat.cast_one, one_mul]
      congr 1
      exact_mod_cast heq

/-- A decimal that reads back and has no more digits than a grid allows shows that there is a hit on
the grid. -/
theorem neighbour?_ne_none (hf : 0 < f.fractionBits) (hrank : 0 < exactCoefficient f rank)
    (hcut : cut < exactDigits f rank) (he : ReadsBack f rank e)
    (hdigits : e.significantDigits ≤ exactDigits f rank - cut) : neighbour? f rank cut ≠ none := by
  refine Option.isSome_iff_ne_none.1 (isSome_neighbour? ?_)
  rcases toRat_le_or_le hrank hcut hdigits with hle | hge
  · exact .inl (he.between hf (.inl ⟨hle, lower_le_magnitude f rank cut⟩))
  · exact .inr (he.between hf (.inr ⟨(magnitude_lt_upper f rank cut).le, hge⟩))

/-- Of two decimals the first is nearer to a magnitude, or as near and not less. -/
def Closer (f : Format) (rank : Nat) (d e : Decimal) : Prop :=
  |Binary.magnitude f rank - d.toRat| < |Binary.magnitude f rank - e.toRat| ∨
    |Binary.magnitude f rank - d.toRat| = |Binary.magnitude f rank - e.toRat| ∧ e.toRat ≤ d.toRat

/-- A hit is closer than every decimal that reads back and has no more digits than the grid
allows. -/
theorem closer_neighbour (hf : 0 < f.fractionBits) (hrank : 0 < exactCoefficient f rank)
    (hcut : cut < exactDigits f rank) (hd : neighbour? f rank cut = some d)
    (he : ReadsBack f rank e) (hdigits : e.significantDigits ≤ exactDigits f rank - cut) :
    Closer f rank d e := by
  have hlower := lower_le_magnitude f rank cut
  have hupper := magnitude_lt_upper f rank cut
  have hstep := step_pos f
  have hgap := magnitude_sub_lower f rank cut
  have hwidth := upper_sub_lower f rank cut
  rcases toRat_le_or_le hrank hcut hdigits with hle | hge
  · have hread := he.between hf (.inl ⟨hle, hlower⟩)
    have hdist : |Binary.magnitude f rank - e.toRat| = Binary.magnitude f rank - e.toRat :=
      abs_of_nonneg (by linarith)
    rcases neighbour?_eq_some hd with ⟨rfl, -⟩ | ⟨rfl, hnear⟩
    · rw [Closer, hdist, abs_of_nonneg (by linarith)]
      rcases hle.lt_or_eq with hlt | heq
      · exact .inl (by linarith)
      · exact .inr ⟨by rw [heq], hle⟩
    · have hcast : (tenTo cut : Rat) ≤ 2 * ((exactCoefficient f rank % tenTo cut : Nat) : Rat) := by
        exact_mod_cast hnear hread
      have hhalf := mul_le_mul_of_nonneg_right hcast hstep.le
      rw [Closer, hdist, abs_of_nonpos (by linarith)]
      rcases (show -(Binary.magnitude f rank - (upper f rank cut).toRat) ≤
        Binary.magnitude f rank - e.toRat by linarith).lt_or_eq with hlt | heq
      · exact .inl hlt
      · exact .inr ⟨heq, by linarith⟩
  · have hread := he.between hf (.inr ⟨hupper.le, hge⟩)
    have hdist : |Binary.magnitude f rank - e.toRat| = e.toRat - Binary.magnitude f rank := by
      rw [abs_of_nonpos (by linarith), neg_sub]
    rcases neighbour?_eq_some hd with ⟨rfl, hnear⟩ | ⟨rfl, -⟩
    · have hcast : 2 * ((exactCoefficient f rank % tenTo cut : Nat) : Rat) < (tenTo cut : Rat) := by
        exact_mod_cast hnear hread
      have hhalf := mul_lt_mul_of_pos_right hcast hstep
      rw [Closer, hdist, abs_of_nonneg (by linarith)]
      exact .inl (by linarith)
    · rw [Closer, hdist, abs_of_nonpos (by linarith), neg_sub]
      rcases hge.lt_or_eq with hlt | heq
      · exact .inl (by linarith)
      · exact .inr ⟨by rw [heq], heq.ge⟩

/-! ### The shortest decimal -/

/-- `d` is the shortest decimal of a magnitude: it rounds to the magnitude, no decimal with fewer
significant digits does, and it is the closest of those with as many, the larger of two. -/
structure IsShortest (f : Format) (rank : Nat) (d : Decimal) : Prop where
  roundsTo : IsNearest (Binary.magnitude f) d.toRat rank
  fewest : ∀ e : Decimal, IsNearest (Binary.magnitude f) e.toRat rank →
    d.significantDigits ≤ e.significantDigits
  closest : ∀ e : Decimal, IsNearest (Binary.magnitude f) e.toRat rank →
    e.significantDigits = d.significantDigits → Closer f rank d e

/-- Being the shortest is a matter of the value. -/
theorem IsShortest.congr (h : IsShortest f rank d) (heq : d.toRat = e.toRat) :
    IsShortest f rank e := by
  have hdigits := significantDigits_congr heq
  refine ⟨heq ▸ h.roundsTo, fun c hc => hdigits ▸ h.fewest c hc, fun c hc hcd => ?_⟩
  have := h.closest c hc (hcd.trans hdigits.symm)
  rwa [Closer, heq] at this

/-- The shortest decimal of zero is zero. -/
theorem isShortest_zero (hf : 0 < f.fractionBits) (h : d.toRat = 0) : IsShortest f 0 d := by
  have hdigits : d.significantDigits = 0 :=
    Nat.le_zero.1 (significantDigits_le_iff.2 ⟨0, 0, Nat.one_pos, by rw [h]; norm_num⟩)
  refine ⟨?_, fun e _ => hdigits ▸ Nat.zero_le _, fun e _ he => ?_⟩
  · have hread := readsBack_shortest f 0
    rw [shortest, if_pos rfl, readsBack_iff hf] at hread
    rwa [h, show (0 : Rat) = (⟨0, 0⟩ : Decimal).toRat by norm_num [toRat]]
  · have hvalue := toRat_eq_zero_of_significantDigits (he.trans hdigits)
    exact .inr ⟨by rw [h, hvalue], by rw [h, hvalue]⟩

theorem exactCoefficient_pos (h : 0 < rank) : 0 < exactCoefficient f rank :=
  Nat.mul_pos ((Nat.zero_le _).trans_lt (f.units_strictMono h)) (Nat.pow_pos (by decide))

/-- **The shortest decimal is the shortest.** -/
theorem isShortest_shortest (hf : 0 < f.fractionBits) (rank : Nat) :
    IsShortest f rank (shortest f rank) := by
  rcases Nat.eq_zero_or_pos rank with rfl | hpos
  · exact isShortest_zero hf (by norm_num [shortest, toRat])
  · have hrank := exactCoefficient_pos (f := f) hpos
    have hlength : 0 < exactDigits f rank := length_digitsOf_pos _
    obtain ⟨cut, hcut, hhit, hmiss⟩ := firstHit_eq f rank (exactDigits f rank - 1)
    have hdigits := significantDigits_neighbour (by omega) hhit
    have hshort : IsShortest f rank (firstHit f rank (exactDigits f rank - 1)) := by
      refine ⟨(readsBack_iff hf).1 (readsBack_firstHit f rank _), fun e he => ?_,
        fun e he heq => ?_⟩
      · by_contra hlt
        rw [Nat.not_le] at hlt
        have hread := (readsBack_iff hf).2 he
        have hsome := significantDigits_pos hpos hread
        have hcoarser : exactDigits f rank - e.significantDigits < exactDigits f rank := by omega
        -- with so few digits the decimal shows a hit on a coarser grid
        exact neighbour?_ne_none hf hrank hcoarser hread (by omega)
          (hmiss _ (by omega) (by omega))
      · exact closer_neighbour hf hrank (by omega) hhit ((readsBack_iff hf).2 he) (by omega)
    rw [shortest, if_neg hpos.ne']
    exact hshort.congr (toRat_trim _).symm

end Decimal

end Paddock
