import Mathlib.Algebra.Group.Nat.Even
import Paddock.Proofs.Binary.Range

/-!
# Binary — rounding is to the nearest

`IsNearest line x i` says what rounding is for, without saying how it is done: no point of the line
is nearer to `x` than the `i`-th, and where another one is as near, `i` is even.  On a line that
increases there is at most one such point, and it moves up with `x` (`IsNearest.unique`,
`IsNearest.mono`).

Rounding to a whole number is to the nearest whole number (`isNearest_nearestEven`), and rounding to
a rank is to the nearest magnitude (`isNearest_nearestRank`).  The second follows from the first:
at the spacing that rounding chooses, every magnitude from the leading bit on is a whole number of
steps, and those below lie on the far side of the leading bit.

So rounding is monotone (`nearestRank_mono`), and the rank that a value rounds to is the one whose
magnitude is the nearest (`nearestRank_eq_iff`).
-/

namespace Paddock

/-! ### The nearest point of a line -/

/-- The `i`-th point of a line is the nearest to `x`; where another one is as near, `i` is even. -/
def IsNearest (line : Nat → Rat) (x : Rat) (i : Nat) : Prop :=
  ∀ j, j ≠ i → |x - line i| < |x - line j| ∨ |x - line i| = |x - line j| ∧ Even i

/-- What is at least as near to the greater of two points is not below their middle. -/
theorem add_le_two_mul_of_abs_le {x a b : Rat} (hab : a < b) (h : |x - b| ≤ |x - a|) :
    a + b ≤ 2 * x := by
  rcases abs_cases (x - a) with ⟨ha, -⟩ | ⟨ha, -⟩
  · have := neg_le_abs (x - b)
    linarith
  · have := neg_le_abs (x - b)
    linarith

/-- What is at least as near to the lesser of two points is not above their middle. -/
theorem two_mul_le_add_of_abs_le {x a b : Rat} (hab : a < b) (h : |x - a| ≤ |x - b|) :
    2 * x ≤ a + b := by
  rcases abs_cases (x - b) with ⟨hb, -⟩ | ⟨hb, -⟩
  · have := le_abs_self (x - a)
    linarith
  · have := le_abs_self (x - a)
    linarith

namespace IsNearest

variable {line : Nat → Rat} {x y : Rat} {i j : Nat}

theorem abs_le (h : IsNearest line x i) (j : Nat) : |x - line i| ≤ |x - line j| := by
  by_cases hj : j = i
  · rw [hj]
  · rcases h j hj with hlt | ⟨heq, -⟩
    · exact hlt.le
    · exact heq.le

/-- Of two points that are both the nearest, neither is below the other: both would be even, and the
point after the lower one would be nearer. -/
theorem not_lt (hline : StrictMono line) (hi : IsNearest line x i) (hj : IsNearest line x j) :
    ¬i < j := by
  intro hlt
  have heq : |x - line i| = |x - line j| := le_antisymm (hi.abs_le j) (hj.abs_le i)
  have heven : Even i ∧ Even j := by
    rcases hi j hlt.ne' with h | ⟨-, h⟩
    · exact absurd heq h.ne
    · rcases hj i hlt.ne with h' | ⟨-, h'⟩
      · exact absurd heq h'.ne'
      · exact ⟨h, h'⟩
  have hnext : i + 1 < j := by
    rcases Nat.lt_or_eq_of_le (Nat.succ_le_of_lt hlt) with h | rfl
    · exact h
    · exact absurd heven.2 (Nat.not_even_iff_odd.2 heven.1.add_one)
  -- `x` is in the middle of the two, and the next point is strictly between them
  have hmiddle := add_le_two_mul_of_abs_le (hline hlt) heq.ge
  have hbelow := two_mul_le_add_of_abs_le (hline i.lt_succ_self) (hi.abs_le (i + 1))
  have := hline hnext
  linarith

/-- A value has at most one nearest point. -/
theorem unique (hline : StrictMono line) (hi : IsNearest line x i) (hj : IsNearest line x j) :
    i = j :=
  le_antisymm (Nat.not_lt.1 (not_lt hline hj hi)) (Nat.not_lt.1 (not_lt hline hi hj))

/-- The nearest point moves up with the value. -/
theorem mono (hline : StrictMono line) (hi : IsNearest line x i) (hj : IsNearest line y j)
    (h : x ≤ y) : i ≤ j := by
  by_contra hlt
  rw [Nat.not_le] at hlt
  have hx := add_le_two_mul_of_abs_le (hline hlt) (hi.abs_le j)
  have hy := two_mul_le_add_of_abs_le (hline hlt) (hj.abs_le i)
  -- both are the middle of the two points
  obtain rfl : x = y := le_antisymm h (by linarith)
  exact not_lt hline hj hi hlt

/-- A change of the unit changes no nearest point. -/
theorem scale_iff {scaled : Nat → Rat} {c : Rat} (hc : 0 < c) (h : ∀ k, line k * c = scaled k) :
    IsNearest scaled (x * c) i ↔ IsNearest line x i := by
  have hdist : ∀ k, |x * c - scaled k| = |x - line k| * c := fun k => by
    rw [← h, ← sub_mul, abs_mul, abs_of_pos hc]
  simp only [IsNearest, hdist, mul_lt_mul_iff_left₀ hc, mul_left_inj' hc.ne']

end IsNearest

/-! ### Whole numbers -/

/-- Rounding moves by at most a half, and by a half only to an even number. -/
theorem abs_sub_nearestEven {x : Rat} (hx : 0 ≤ x) :
    |x - nearestEven x| < 1 / 2 ∨ |x - nearestEven x| = 1 / 2 ∧ Even (nearestEven x) := by
  obtain ⟨below, hbelow, hle, hlt⟩ := exists_floor_eq hx
  simp only [nearestEven, hbelow, Int.toNat_natCast]
  split_ifs with hless hmore
  · left
    rw [abs_of_nonneg (by linarith)]
    exact hless
  · left
    push_cast
    rw [abs_of_nonpos (by linarith)]
    linarith
  · right
    have hhalf : x - below = 1 / 2 := le_antisymm (not_lt.1 hmore) (not_lt.1 hless)
    rcases Nat.mod_two_eq_zero_or_one below with h | h <;> rw [h]
    · refine ⟨?_, Nat.even_iff.2 (by omega)⟩
      push_cast
      rw [abs_of_nonneg (by linarith)]
      linarith
    · refine ⟨?_, Nat.even_iff.2 (by omega)⟩
      push_cast
      rw [abs_of_nonpos (by linarith)]
      linarith

/-- **Rounding to a whole number is to the nearest one.** -/
theorem isNearest_nearestEven {x : Rat} (hx : 0 ≤ x) :
    IsNearest (fun n => (n : Rat)) x (nearestEven x) := by
  intro k hk
  have hapart : 1 ≤ |x - nearestEven x| + |x - k| := by
    have hstep : (1 : Rat) ≤ |(nearestEven x : Rat) - k| := by
      exact_mod_cast Int.one_le_abs (show (nearestEven x : Int) - k ≠ 0 by omega)
    have := abs_sub_le (nearestEven x : Rat) x k
    rw [abs_sub_comm _ x] at this
    linarith
  rcases abs_sub_nearestEven hx with h | ⟨h, heven⟩
  · exact .inl (by linarith)
  · rcases (show |x - nearestEven x| ≤ |x - k| by linarith).lt_or_eq with hlt | heq
    · exact .inl hlt
    · exact .inr ⟨heq, heven⟩

theorem le_nearestEven {x : Rat} {n : Nat} (h : (n : Rat) ≤ x) : n ≤ nearestEven x := by
  have hmono : StrictMono fun n : Nat => (n : Rat) := Nat.strictMono_cast
  have hn : (0 : Rat) ≤ n := by exact_mod_cast Nat.zero_le n
  have := (isNearest_nearestEven hn).mono hmono (isNearest_nearestEven (hn.trans h)) h
  rwa [nearestEven_natCast] at this

/-! ### Ranks -/

namespace Format

variable {f : Format} {t u : Rat}

/-- The magnitude of a rank that is given by its spacing and its significand.  A full row of
significands is the first magnitude at the next spacing. -/
theorem units_add (f : Format) {s n : Nat} (hs : s = 0 ∨ f.lead ≤ n) (hn : n ≤ 2 * f.lead) :
    f.units (s * f.lead + n) = n * 2 ^ s := by
  have hlead := f.lead_pos
  rcases hn.lt_or_eq with hlt | rfl
  · have hscale : f.scale (s * f.lead + n) = s := by
      rw [scale, Nat.mul_comm, Nat.mul_add_div hlead]
      rcases hs with rfl | hle
      · have := (Nat.div_lt_iff_lt_mul hlead).2 hlt
        omega
      · have : n / f.lead = 1 := by
          rw [Nat.div_eq_iff hlead]
          omega
        omega
    rw [units_eq, significand, hscale, Nat.add_sub_cancel_left]
  · have hscale : f.scale (s * f.lead + 2 * f.lead) = s + 1 := by
      rw [scale, ← Nat.add_mul, Nat.mul_div_cancel _ hlead]
      omega
    have hsig : f.significand (s * f.lead + 2 * f.lead) = f.lead := by
      rw [significand, hscale]
      refine Nat.sub_eq_of_eq_add ?_
      ring
    rw [units_eq, hsig, hscale, pow_succ]
    ring

/-- The next magnitude is one spacing further. -/
theorem units_succ (f : Format) (rank : Nat) :
    f.units (rank + 1) = f.units rank + 2 ^ f.scale rank := by
  have hrank : rank = f.scale rank * f.lead + f.significand rank :=
    (Nat.add_sub_of_le (f.scale_mul_lead_le rank)).symm
  have hs : f.scale rank = 0 ∨ f.lead ≤ f.significand rank + 1 := by
    rcases Nat.eq_zero_or_pos (f.scale rank) with h | h
    · exact .inl h
    · exact .inr ((lead_le_significand h).trans (Nat.le_succ _))
  have hnext := f.units_add hs (f.significand_lt rank)
  rw [← Nat.add_assoc, ← hrank] at hnext
  rw [hnext, units_eq]
  ring

theorem units_strictMono (f : Format) : StrictMono f.units :=
  strictMono_nat_of_lt_succ fun rank => by
    rw [units_succ]
    exact Nat.lt_add_of_pos_right (Nat.two_pow_pos _)

/-- Beyond the least spacing a magnitude has its leading bit at the spacing rounding chooses. -/
theorem lead_le_of_scaleAt_pos (ht : 0 ≤ t) (h : 0 < f.scaleAt t) :
    ((f.lead * 2 ^ f.scaleAt t : Nat) : Rat) ≤ t := by
  obtain ⟨below, hbelow, hle, -⟩ := exists_floor_eq ht
  have hlog : below.log2 = f.fractionBits + f.scaleAt t := by
    rw [scaleAt, hbelow, Int.toNat_natCast] at h ⊢
    omega
  have hne : below ≠ 0 := by
    rintro rfl
    rw [Nat.log2_zero] at hlog
    omega
  have hpow := Nat.log2_self_le hne
  rw [hlog, pow_add, ← lead_eq] at hpow
  exact le_trans (by exact_mod_cast hpow) hle

/-- From the spacing `2 ^ s` on every magnitude is a whole number of steps `2 ^ s`. -/
theorem exists_units_eq_mul {s rank : Nat} (h : s ≤ f.scale rank) :
    ∃ k, f.units rank = k * 2 ^ s := by
  refine ⟨f.significand rank * 2 ^ (f.scale rank - s), ?_⟩
  rw [units_eq, Nat.mul_assoc, ← pow_add, Nat.sub_add_cancel h]

/-- Below the spacing `2 ^ s` every magnitude is less than the first one at that spacing. -/
theorem units_lt_of_scale_lt {s rank : Nat} (h : f.scale rank < s) :
    f.units rank < f.lead * 2 ^ s := by
  have hfirst := f.units_add (s := s) (n := f.lead) (.inr le_rfl) (by omega)
  have hblock : rank / f.lead < s + 1 := by
    unfold scale at h
    omega
  rw [← hfirst]
  refine f.units_strictMono ?_
  rw [← Nat.succ_mul]
  exact (Nat.div_lt_iff_lt_mul f.lead_pos).1 hblock

/-- The steps that rounding counts at the spacing it chooses. -/
def stepsAt (f : Format) (t : Rat) : Nat := nearestEven (t / 2 ^ f.scaleAt t)

theorem nearestRank_eq_stepsAt (f : Format) (t : Rat) :
    f.nearestRank t = f.scaleAt t * f.lead + f.stepsAt t := by
  rw [nearestRank, stepsAt, Nat.one_shiftLeft, Nat.cast_pow, Nat.cast_two]

/-- Among the whole numbers of steps, rounding takes the nearest. -/
theorem isNearest_stepsAt (f : Format) (ht : 0 ≤ t) :
    IsNearest (fun k => (k : Rat) * 2 ^ f.scaleAt t) t (f.stepsAt t) := by
  have hstep : (0 : Rat) < 2 ^ f.scaleAt t := by positivity
  have hnearest := isNearest_nearestEven (div_nonneg ht hstep.le)
  rw [← IsNearest.scale_iff hstep fun _ => rfl, div_mul_cancel₀ _ hstep.ne'] at hnearest
  exact hnearest

theorem units_nearestRank (f : Format) (ht : 0 ≤ t) :
    (f.units (f.nearestRank t) : Rat) = f.stepsAt t * 2 ^ f.scaleAt t := by
  have hstep : (0 : Rat) < 2 ^ f.scaleAt t := by positivity
  have hupper : f.stepsAt t ≤ 2 * f.lead := by
    refine nearestEven_le (div_nonneg ht hstep.le) ((div_lt_iff₀ hstep).2 ?_)
    have hfull := f.lt_scaleAt t
    push_cast at hfull ⊢
    linarith
  have hlower : f.scaleAt t = 0 ∨ f.lead ≤ f.stepsAt t := by
    rcases Nat.eq_zero_or_pos (f.scaleAt t) with h | h
    · exact .inl h
    · refine .inr (le_nearestEven ((le_div_iff₀ hstep).2 ?_))
      exact_mod_cast lead_le_of_scaleAt_pos ht h
  rw [nearestRank_eq_stepsAt, f.units_add hlower hupper, Nat.cast_mul, Nat.cast_pow, Nat.cast_two]

theorem even_nearestRank (hf : 0 < f.fractionBits) (h : Even (f.stepsAt t)) :
    Even (f.nearestRank t) := by
  -- a block of ranks has even length
  rw [nearestRank_eq_stepsAt, lead_eq]
  exact ((Nat.even_pow.2 ⟨even_two, hf.ne'⟩).mul_left _).add h

/-- **Rounding to a rank is to the nearest magnitude.** -/
theorem isNearest_nearestRank (hf : 0 < f.fractionBits) (ht : 0 ≤ t) :
    IsNearest (fun rank => (f.units rank : Rat)) t (f.nearestRank t) := by
  have hsteps := f.isNearest_stepsAt ht
  intro other hne
  simp only [f.units_nearestRank ht]
  by_cases hscale : f.scaleAt t ≤ f.scale other
  · obtain ⟨k, hk⟩ := exists_units_eq_mul hscale
    have hk' : (f.units other : Rat) = k * 2 ^ f.scaleAt t := by
      rw [hk, Nat.cast_mul, Nat.cast_pow, Nat.cast_two]
    have hkn : k ≠ f.stepsAt t := by
      rintro rfl
      refine hne (f.units_strictMono.injective ?_)
      rw [← @Nat.cast_inj Rat, hk', f.units_nearestRank ht]
    rw [hk']
    exact (hsteps k hkn).imp_right fun h => ⟨h.1, even_nearestRank hf h.2⟩
  · -- the first magnitude at this spacing lies between `t` and the other one
    left
    have hlead := lead_le_of_scaleAt_pos (f := f) ht (by omega)
    have hother : (f.units other : Rat) < ((f.lead * 2 ^ f.scaleAt t : Nat) : Rat) := by
      exact_mod_cast units_lt_of_scale_lt (by omega)
    push_cast at hlead hother
    calc |t - f.stepsAt t * 2 ^ f.scaleAt t| ≤ |t - f.lead * 2 ^ f.scaleAt t| :=
          hsteps.abs_le f.lead
      _ = t - f.lead * 2 ^ f.scaleAt t := abs_of_nonneg (by linarith)
      _ < t - f.units other := by linarith
      _ = |t - f.units other| := (abs_of_nonneg (by linarith)).symm

theorem units_cast_strictMono (f : Format) : StrictMono fun rank => (f.units rank : Rat) :=
  Nat.strictMono_cast.comp f.units_strictMono

/-- **Rounding is monotone.** -/
theorem nearestRank_mono (hf : 0 < f.fractionBits) (ht : 0 ≤ t) (h : t ≤ u) :
    f.nearestRank t ≤ f.nearestRank u :=
  (isNearest_nearestRank hf ht).mono f.units_cast_strictMono
    (isNearest_nearestRank hf (ht.trans h)) h

/-- A value rounds to the rank whose magnitude is the nearest to it. -/
theorem nearestRank_eq_iff (hf : 0 < f.fractionBits) {x : Rat} (hx : 0 ≤ x) {rank : Nat} :
    f.nearestRank (x * (f.unitsPerOne : Rat)) = rank ↔ IsNearest (Binary.magnitude f) x rank := by
  have hone : (0 : Rat) < (f.unitsPerOne : Rat) := by exact_mod_cast f.unitsPerOne_pos
  have hnearest := isNearest_nearestRank hf (mul_nonneg hx hone.le)
  rw [← IsNearest.scale_iff hone (Binary.magnitude_mul_unitsPerOne f)]
  constructor
  · rintro rfl
    exact hnearest
  · exact hnearest.unique f.units_cast_strictMono

end Format

end Paddock
