import Mathlib.Data.List.TakeWhile
import Paddock.Decimal.Shortest
import Paddock.Proofs.Binary.Exact

/-!
# Decimal — the shortest decimal reads back

`shortest f rank` rounds to the magnitude of `rank` again (`readsBack_shortest`).  On every grid but
the finest a hit is taken only because it reads back; the finest grid holds the magnitude itself,
which rounds to its own rank.  Moving zeros from the coefficient into the exponent changes no value
(`toRat_trim`).
-/

namespace Paddock

/-- The value of a row of digits. -/
def digitsValue (cs : List Char) : Nat := Nat.ofDigitChars 10 cs 0

@[simp] theorem digitsValue_digitsOf (n : Nat) : digitsValue (digitsOf n) = n :=
  Nat.ofDigitChars_ten_toDigits

theorem digitsValue_append (xs ys : List Char) :
    digitsValue (xs ++ ys) = 10 ^ ys.length * digitsValue xs + digitsValue ys := by
  rw [digitsValue, Nat.ofDigitChars_append, Nat.ofDigitChars_eq_ofDigitChars_zero]
  rfl

@[simp] theorem digitsValue_replicate_zero (n : Nat) :
    digitsValue (List.replicate n '0') = 0 := by
  rw [digitsValue, Nat.ofDigitChars_replicate_zero, Nat.mul_zero]

namespace Decimal

/-- The zeros counted at the end are factors of ten. -/
theorem tenTo_trailingZeros_dvd (n : Nat) : tenTo (trailingZeros n) ∣ n := by
  obtain ⟨front, hfront⟩ :
      ∃ front, digitsOf n = front ++ List.replicate (trailingZeros n) '0' := by
    refine ⟨((digitsOf n).reverse.dropWhile (· == '0')).reverse, ?_⟩
    have hzeros : (digitsOf n).reverse.takeWhile (· == '0') =
        List.replicate (trailingZeros n) '0' := by
      refine List.eq_replicate_iff.2 ⟨rfl, fun c hc => ?_⟩
      simpa using List.mem_takeWhile_imp hc
    rw [← List.reverse_replicate, ← hzeros, ← List.reverse_append,
      List.takeWhile_append_dropWhile, List.reverse_reverse]
  refine ⟨digitsValue front, ?_⟩
  calc n = digitsValue (digitsOf n) := (digitsValue_digitsOf n).symm
    _ = tenTo (trailingZeros n) * digitsValue front := by
        rw [hfront, digitsValue_append, digitsValue_replicate_zero, List.length_replicate,
          Nat.add_zero]
        rfl

theorem toRat_trim (d : Decimal) : d.trim.toRat = d.toRat := by
  obtain ⟨q, hq⟩ := tenTo_trailingZeros_dvd d.coefficient
  have hten : tenTo (trailingZeros d.coefficient) = 10 ^ trailingZeros d.coefficient := rfl
  have hdiv : d.coefficient / tenTo (trailingZeros d.coefficient) = q :=
    Nat.div_eq_of_eq_mul_right (hten ▸ Nat.pow_pos (by decide)) hq
  rw [toRat, toRat, trim, hdiv, zpow_add₀ (by norm_num), zpow_natCast]
  conv_rhs => rw [hq, hten]
  push_cast
  ring

variable {f : Format} {rank : Nat}

/-- The finest grid holds the magnitude. -/
theorem toRat_onGrid_exact (f : Format) (rank : Nat) :
    (onGrid f 0 (exactCoefficient f rank)).toRat * (f.unitsPerOne : Rat) =
      (f.units rank : Rat) := by
  have hten : (10 : Rat) ^ f.unitExponent = 5 ^ f.unitExponent * 2 ^ f.unitExponent := by
    rw [← mul_pow]
    norm_num
  have hfive : ((Nat.pow 5 f.unitExponent : Nat) : Rat) = 5 ^ f.unitExponent := by
    exact_mod_cast rfl
  rw [toRat, onGrid, exactCoefficient, Format.unitsPerOne_eq, Nat.cast_zero, zero_sub, zpow_neg,
    zpow_natCast, hten, Nat.cast_mul, hfive]
  push_cast
  field_simp

theorem readsBack_neighbour {cut : Nat} {d : Decimal} (h : neighbour? f rank cut = some d) :
    ReadsBack f rank d := by
  simp only [neighbour?] at h
  split at h
  · split at h
    · obtain rfl := Option.some.inj h
      rename_i hboth
      exact hboth.1
    · obtain rfl := Option.some.inj h
      assumption
  · split at h
    · obtain rfl := Option.some.inj h
      assumption
    · cases h

theorem readsBack_firstHit (f : Format) (rank : Nat) :
    ∀ cut, ReadsBack f rank (firstHit f rank cut)
  | 0 => by
      -- nothing is rounded here, so the search cannot fail
      rw [firstHit, ReadsBack, toRat_onGrid_exact]
      exact f.nearestRank_units rank
  | cut + 1 => by
      rw [firstHit]
      split
      · exact readsBack_neighbour (by assumption)
      · exact readsBack_firstHit f rank cut

/-- **The shortest decimal reads back** as the magnitude it was found for. -/
theorem readsBack_shortest (f : Format) (rank : Nat) : ReadsBack f rank (shortest f rank) := by
  rw [shortest]
  split
  · rename_i hzero
    simp [ReadsBack, toRat, hzero, f.nearestRank_zero]
  · rw [ReadsBack, toRat_trim]
    exact readsBack_firstHit f rank _

theorem round_shortest (negative : Bool) (rank : Fin f.infinityRank) :
    Binary.round negative (shortest f rank).toRat = .finite negative rank := by
  have hread := readsBack_shortest f rank
  rw [ReadsBack] at hread
  rw [Binary.round, hread, Binary.ofRank, dif_pos rank.isLt]

end Decimal

end Paddock
