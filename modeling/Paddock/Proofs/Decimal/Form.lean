import Paddock.Proofs.Decimal.Minimal

/-!
# Decimal — the written form of the shortest decimal

A decimal is written positionally when its leading digit stands between two powers of ten.  For the
shortest decimal of a `Single` this is a matter of the rank: the numbers written positionally are
zero and those from the one nearest to `10 ^ -4` up to the one nearest to `10 ^ 16`, which is the
first with an exponent again (`text_shortest`).  A number at such a threshold has the power of ten
itself as its shortest decimal, so no shortest decimal is on the wrong side of it
(`zpow_le_shortest_iff`).

A decimal with an exponent has a point only if it has two digits, so a point is missing from the
numbers outside that range that one digit identifies (`point_mem_text_shortest_iff`).
-/

namespace Paddock.Decimal

variable {f : Format} {d : Decimal} {rank : Nat}

/-! ### The leading digit -/

/-- A decimal is at least a power of ten exactly if its leading digit stands there or before. -/
theorem zpow_le_toRat_iff (h : 0 < d.coefficient) (k : Int) :
    (10 : Rat) ^ k ≤ d.toRat ↔ k ≤ d.leadingExponent := by
  have hlength : 0 < d.digits.length := length_digitsOf_pos d.coefficient
  have hten : (0 : Rat) ≤ 10 ^ d.exponent := zpow_nonneg (by norm_num) _
  have hle : (10 : Rat) ^ d.leadingExponent ≤ d.toRat := by
    have hpow : ((10 ^ (d.digits.length - 1) : Nat) : Rat) ≤ d.coefficient := by
      exact_mod_cast pow_length_digitsOf_le h
    calc (10 : Rat) ^ d.leadingExponent
        = ((10 ^ (d.digits.length - 1) : Nat) : Rat) * 10 ^ d.exponent := by
          rw [Nat.cast_pow, ← zpow_natCast, Nat.cast_ofNat, ← zpow_add₀ (by norm_num),
            leadingExponent]
          congr 1
          omega
      _ ≤ d.toRat := mul_le_mul_of_nonneg_right hpow hten
  have hlt : d.toRat < (10 : Rat) ^ (d.leadingExponent + 1) := by
    have hpow : (d.coefficient : Rat) < ((10 ^ d.digits.length : Nat) : Rat) := by
      exact_mod_cast lt_pow_length_digitsOf d.coefficient
    calc d.toRat < ((10 ^ d.digits.length : Nat) : Rat) * 10 ^ d.exponent :=
          mul_lt_mul_of_pos_right hpow (zpow_pos (by norm_num) _)
      _ = (10 : Rat) ^ (d.leadingExponent + 1) := by
          rw [Nat.cast_pow, ← zpow_natCast, Nat.cast_ofNat, ← zpow_add₀ (by norm_num),
            leadingExponent]
          congr 1
          omega
  constructor
  · intro hk
    exact Int.lt_add_one_iff.1 ((zpow_lt_zpow_iff_right₀ (by norm_num)).1 (hk.trans_lt hlt))
  · intro hk
    exact (zpow_le_zpow_right₀ (by norm_num) hk).trans hle

/-! ### Points -/

theorem point_notMem_digits (d : Decimal) : '.' ∉ d.digits := fun h =>
  absurd (isDigit_of_mem_digits h) (by decide)

theorem point_mem_positional (d : Decimal) : '.' ∈ d.positional := by
  rw [positional]
  split <;> simp [fixedPoint]

/-- With an exponent the point stands behind the first of several digits. -/
theorem point_mem_scientific_iff (d : Decimal) : '.' ∈ d.scientific ↔ 1 < d.digits.length := by
  have hexponent : '.' ∉ 'e' :: d.leadingExponent.repr.toList := by
    intro h
    rcases List.mem_cons.1 h with h | h
    · cases h
    · rcases eq_minus_or_isDigit_of_mem_repr h with h | h <;> cases h
  have hdigits := d.point_notMem_digits
  rw [scientific, List.mem_append, or_iff_left hexponent]
  split
  · rename_i hd
    rw [hd]
    simp
  · rename_i first hd
    rw [hd] at hdigits ⊢
    simpa using hdigits
  · rename_i first rest hrest hd
    rw [hd, List.length_cons]
    simpa using List.length_pos_of_ne_nil hrest

theorem exponentMark_notMem_positional (d : Decimal) : 'e' ∉ d.positional := by
  intro h
  rcases eq_point_or_isDigit_of_mem_positional h with h | h <;> cases h

/-! ### Trimmed decimals -/

theorem coefficient_pos_of_significantDigits (h : 0 < d.significantDigits) : 0 < d.coefficient := by
  refine Nat.pos_of_ne_zero fun hzero => h.ne' ?_
  rw [significantDigits, digits, hzero]
  rfl

/-- A trimmed coefficient ends in another digit than zero. -/
theorem coefficient_trim_mod (h : 0 < d.coefficient) : d.trim.coefficient % 10 ≠ 0 := by
  obtain ⟨m, hm, hmod, -⟩ := exists_eq_mul_pow h
  have hcoefficient : d.trim.coefficient = m := Nat.div_eq_of_eq_mul_left (tenTo_pos _) hm
  rwa [hcoefficient]

/-- Every digit of a trimmed decimal is significant. -/
theorem length_digits_trim (h : 0 < d.coefficient) :
    d.trim.digits.length = d.trim.significantDigits := by
  rw [significantDigits, trailingZeros_of_mod_ne (coefficient_trim_mod h), Nat.sub_zero]

/-- The shortest decimal of a magnitude other than zero is trimmed. -/
theorem exists_shortest_eq_trim (f : Format) (h : 0 < rank) :
    ∃ d : Decimal, 0 < d.coefficient ∧ shortest f rank = d.trim :=
  ⟨_, coefficient_pos_of_significantDigits (significantDigits_pos h (readsBack_firstHit f rank _)),
    if_neg h.ne'⟩

/-! ### The two thresholds -/

/-- Where a power of ten is the shortest decimal of a rank, the shortest decimals from this rank on
are those from this power on. -/
theorem zpow_le_shortest_iff (hf : 0 < f.fractionBits) {k : Int} {threshold : Nat}
    (h : shortest f threshold = ⟨1, k⟩) (rank : Nat) :
    (10 : Rat) ^ k ≤ (shortest f rank).toRat ↔ threshold ≤ rank := by
  have hvalue : (shortest f threshold).toRat = 10 ^ k := by rw [h, toRat, Nat.cast_one, one_mul]
  have hthreshold := readsBack_shortest f threshold
  have hrank := readsBack_shortest f rank
  rw [← hvalue]
  constructor
  · intro hle
    exact hthreshold.rank_le hf hrank hle
  · intro hle
    by_contra hlt
    obtain rfl := le_antisymm (hrank.rank_le hf hthreshold (not_le.1 hlt).le) hle
    exact hlt le_rfl

/-- The rank of the `Single` nearest to `10 ^ -4`, the first that is written positionally. -/
def firstPositional : Nat := 0x38d1b717

/-- The rank of the `Single` nearest to `10 ^ 16`, the first beyond that has an exponent. -/
def firstScientific : Nat := 0x5a0e1bca

theorem shortest_thresholds : shortest .single firstPositional = ⟨1, -4⟩ ∧
    shortest .single firstScientific = ⟨1, 16⟩ := by decide +kernel

/-- Whether the magnitude of a rank is written without an exponent. -/
def IsPlain (rank : Nat) : Prop := rank = 0 ∨ firstPositional ≤ rank ∧ rank < firstScientific

/-- Reading off the rank is enough. -/
instance decidableIsPlain (rank : Nat) : Decidable (IsPlain rank) :=
  inferInstanceAs (Decidable (_ ∨ _))

/-- **The rank decides how a number is written.** -/
theorem text_shortest (rank : Nat) :
    (shortest .single rank).text =
      if IsPlain rank then (shortest .single rank).positional
      else (shortest .single rank).scientific := by
  rcases Nat.eq_zero_or_pos rank with rfl | hpos
  · rw [if_pos (show IsPlain 0 from .inl rfl), text, if_pos (by decide)]
  · obtain ⟨d, hd, heq⟩ := exists_shortest_eq_trim .single hpos
    have hcoefficient : 0 < (shortest .single rank).coefficient := by
      have hmod := coefficient_trim_mod hd
      rw [heq]
      omega
    have hf : 0 < Format.single.fractionBits := by decide
    have hleast := zpow_le_toRat_iff hcoefficient (-4)
    rw [zpow_le_shortest_iff hf shortest_thresholds.1] at hleast
    have hgreatest := zpow_le_toRat_iff hcoefficient 16
    rw [zpow_le_shortest_iff hf shortest_thresholds.2] at hgreatest
    have hiff : positionalRange.least ≤ (shortest .single rank).leadingExponent ∧
        (shortest .single rank).leadingExponent ≤ positionalRange.greatest ↔ IsPlain rank := by
      simp only [positionalRange, IsPlain, hpos.ne', false_or]
      omega
    rw [text]
    simp only [hiff]

/-- An exponent is written exactly where a number is not plain. -/
theorem exponentMark_mem_text_shortest_iff (rank : Nat) :
    'e' ∈ (shortest .single rank).text ↔ ¬IsPlain rank := by
  rw [text_shortest]
  split_ifs with hplain
  · exact iff_of_false (exponentMark_notMem_positional _) (not_not.2 hplain)
  · exact iff_of_true (by simp [scientific]) hplain

/-- **A point is missing exactly where an exponent follows a single digit.** -/
theorem point_mem_text_shortest_iff (rank : Nat) :
    '.' ∈ (shortest .single rank).text ↔
      IsPlain rank ∨ 1 < (shortest .single rank).significantDigits := by
  rw [text_shortest]
  split_ifs with hplain
  · exact iff_of_true (point_mem_positional _) (.inl hplain)
  · have hpos : 0 < rank := Nat.pos_of_ne_zero fun hzero => hplain (.inl hzero)
    obtain ⟨d, hd, heq⟩ := exists_shortest_eq_trim .single hpos
    rw [or_iff_right hplain, point_mem_scientific_iff, heq, length_digits_trim hd]

end Paddock.Decimal
