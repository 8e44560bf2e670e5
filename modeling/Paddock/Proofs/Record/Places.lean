import Paddock.Proofs.Binary.Nearest
import Paddock.Proofs.Binary.Pattern
import Paddock.Proofs.Decimal.Reader
import Paddock.Record.Outline

/-!
# Record — numbers with two places

A report shows its two floating-point numbers with two places.  `TwoPlaces negative n text` is the
form of such a text: a minus sign or none, a whole part without superfluous zeros, a point and two
digits, `n` when they are read without the point.  The form is unambiguous (`TwoPlaces.inj`).

`IsNearestInt x n` says which whole number a value is rounded to: none is nearer, and of two equally
near it is the even one.  What a report shows of a finite number is the sign bit and the whole
number nearest to a hundred times its exact magnitude (`Binary.shows_fixedText`), so two numbers
print alike exactly if these agree (`Binary.fixedText_eq_iff`).
-/

namespace Paddock

/-! ### The nearest whole number -/

/-- The whole number nearest to `x`; where another one is as near, it is even. -/
def IsNearestInt (x : Rat) (n : Int) : Prop :=
  ∀ k : Int, k ≠ n → |x - n| < |x - k| ∨ |x - n| = |x - k| ∧ Even n

/-- A negative whole number is farther from what is not negative than zero is. -/
theorem abs_lt_of_neg {x : Rat} (hx : 0 ≤ x) {k : Int} (hk : k < 0) : |x| < |x - k| := by
  have hk' : (k : Rat) < 0 := by exact_mod_cast hk
  rw [abs_of_nonneg hx, abs_of_nonneg (by linarith)]
  linarith

/-- **Rounding is to the nearest whole number,** and no other one is the nearest. -/
theorem isNearestInt_iff {x : Rat} (hx : 0 ≤ x) {n : Int} :
    IsNearestInt x n ↔ n = nearestEven x := by
  have hnearest := isNearest_nearestEven hx
  constructor
  · intro h
    have hn : 0 ≤ n := by
      by_contra hneg
      rw [not_le] at hneg
      have hfar := abs_lt_of_neg hx hneg
      have hzero := h 0 hneg.ne'
      rw [Int.cast_zero, sub_zero] at hzero
      rcases hzero with hlt | ⟨heq, -⟩
      · exact lt_asymm hlt hfar
      · exact hfar.ne' heq
    obtain ⟨m, rfl⟩ := Int.eq_ofNat_of_zero_le hn
    have hm : IsNearest (fun n => (n : Rat)) x m := by
      intro k hk
      have hmk := h k (by exact_mod_cast hk)
      simpa only [Int.cast_natCast, Int.even_coe_nat] using hmk
    rw [hm.unique Nat.strictMono_cast hnearest]
  · rintro rfl k hk
    rcases lt_or_ge k 0 with hneg | hpos
    · left
      have hzero := hnearest.abs_le 0
      rw [Nat.cast_zero, sub_zero] at hzero
      exact hzero.trans_lt (abs_lt_of_neg hx hneg)
    · obtain ⟨m, rfl⟩ := Int.eq_ofNat_of_zero_le hpos
      have hm := hnearest m (by exact_mod_cast hk)
      simpa only [Int.cast_natCast, Int.even_coe_nat] using hm

/-! ### The form of a text with two places -/

/-- A minus sign if `negative`, a whole part without superfluous zeros, a point and two digits,
which are `n` when read without the point. -/
def TwoPlaces (negative : Bool) (n : Nat) (text : String) : Prop :=
  ∃ whole fraction : List Char,
    text.toList = (if negative then ['-'] else []) ++ (whole ++ '.' :: fraction) ∧
      isDigits whole = true ∧ (whole.head? = some '0' → whole = ['0']) ∧
      isDigits fraction = true ∧ fraction.length = 2 ∧ digitsValue (whole ++ fraction) = n

/-- The digits before a point are known from the whole text. -/
theorem takeWhile_isDigit_point {whole : List Char} (h : ∀ c ∈ whole, c.isDigit = true)
    (fraction : List Char) : (whole ++ '.' :: fraction).takeWhile Char.isDigit = whole := by
  rw [List.takeWhile_append_of_pos h]
  exact List.append_nil whole

theorem isDigit_digitChar {a : Nat} (ha : a < 10) : (Nat.digitChar a).isDigit = true := by
  refine isDigit_of_mem_digitsOf (n := a) ?_
  rw [digitsOf, Nat.toDigits_of_lt_base ha]
  exact List.mem_singleton_self _

theorem digitsValue_digitChar_pair {a b : Nat} (ha : a < 10) (hb : b < 10) :
    digitsValue [Nat.digitChar a, Nat.digitChar b] = 10 * a + b := by
  have ha' := Nat.toNat_digitChar_sub_48_of_lt_ten ha
  have hb' := Nat.toNat_digitChar_sub_48_of_lt_ten hb
  simp [digitsValue, Nat.ofDigitChars, ha', hb']

namespace TwoPlaces

variable {negative negative' : Bool} {m n : Nat} {text : String}

/-- A text has one sign and one number of hundredths. -/
theorem inj (h : TwoPlaces negative m text) (h' : TwoPlaces negative' n text) :
    negative = negative' ∧ m = n := by
  obtain ⟨whole, fraction, htext, hwhole, -, -, -, rfl⟩ := h
  obtain ⟨whole', fraction', htext', hwhole', -, -, -, rfl⟩ := h'
  obtain ⟨hne, hdigit⟩ := isDigits_iff.1 hwhole
  obtain ⟨hne', hdigit'⟩ := isDigits_iff.1 hwhole'
  rw [htext] at htext'
  have hsign : negative = negative' := by
    obtain ⟨c, cs, rfl⟩ := List.exists_cons_of_ne_nil hne
    obtain ⟨c', cs', rfl⟩ := List.exists_cons_of_ne_nil hne'
    have hhead := congrArg List.head? htext'
    -- one text starts with a digit and the other with the minus sign
    cases negative with
    | false =>
        cases negative' with
        | false => rfl
        | true => exact absurd (hdigit c List.mem_cons_self) (by rw [Option.some.inj hhead]; decide)
    | true =>
        cases negative' with
        | false =>
            exact absurd (hdigit' c' List.mem_cons_self) (by rw [← Option.some.inj hhead]; decide)
        | true => rfl
  subst hsign
  rw [List.append_cancel_left_eq] at htext'
  have hsame : whole = whole' := by
    rw [← takeWhile_isDigit_point hdigit fraction, htext', takeWhile_isDigit_point hdigit']
  subst hsame
  rw [List.append_cancel_left_eq, List.cons.injEq] at htext'
  exact ⟨rfl, by rw [htext'.2]⟩

/-- Hundredths with a point before the last two digits have the form. -/
theorem fixedPoint (negative : Bool) (n : Nat) :
    TwoPlaces negative n
      (Binary.signText negative ++ String.ofList (fixedPoint 2 (digitsOf n))) := by
  have hlast : n / 10 % 10 < 10 ∧ n % 10 < 10 :=
    ⟨Nat.mod_lt _ (by decide), Nat.mod_lt _ (by decide)⟩
  refine ⟨digitsOf (n / 100), [Nat.digitChar (n / 10 % 10), Nat.digitChar (n % 10)], ?_,
    isDigits_digitsOf _, ?_, ?_, rfl, ?_⟩
  · rw [String.toList_append, toList_signText, String.toList_ofList, fixedPoint_two]
  · intro hhead
    rw [eq_zero_of_head?_digitsOf hhead]
    rfl
  · rw [isDigits_iff]
    refine ⟨List.cons_ne_nil _ _, ?_⟩
    rw [List.forall_mem_cons, List.forall_mem_singleton]
    exact ⟨isDigit_digitChar hlast.1, isDigit_digitChar hlast.2⟩
  · rw [digitsValue_append, digitsValue_digitsOf, digitsValue_digitChar_pair hlast.1 hlast.2]
    show 10 ^ 2 * (n / 100) + _ = n
    omega

end TwoPlaces

/-! ### What a report shows -/

/-- What is shown of the number with a bit pattern: `NaN`, a signed `inf`, or the sign bit and the
whole number of hundredths nearest to the exact magnitude. -/
structure ShowsRounded (u : BitVec 32) (text : String) : Prop where
  nan : Binary.IsNaNPattern (f := .single) u → text = "NaN"
  infinite : (Binary.ofBits u : Single) = .inf u.msb → text = if u.msb then "-inf" else "inf"
  finite : ∀ x, (Binary.ofBits u : Single).toRat? = some x →
    ∃ n : Nat, TwoPlaces u.msb n text ∧ IsNearestInt (100 * |x|) n

namespace Binary

/-- A number with an exact value is its sign bit and a rank. -/
theorem exists_of_toRat? {u : BitVec 32} {x : Rat} (h : (ofBits u : Single).toRat? = some x) :
    ∃ rank, (ofBits u : Single) = finite u.msb rank ∧ |x| = magnitude .single rank := by
  rcases lt_trichotomy (patternRank (f := .single) u) Format.single.infinityRank with hu | hu | hu
  · have hbits := ofBits_of_lt hu
    rw [hbits, toRat?, Option.some.injEq] at h
    refine ⟨_, hbits, ?_⟩
    rw [← h, abs_signed, abs_of_nonneg (magnitude_nonneg _ _)]
  · rw [ofBits_of_eq hu] at h
    cases h
  · rw [ofBits_of_gt hu] at h
    cases h

theorem isNearestInt_hundredths {x : Rat} {rank : Nat} (hx : |x| = magnitude .single rank)
    {n : Int} : IsNearestInt (100 * |x|) n ↔ n = hundredths .single rank := by
  rw [isNearestInt_iff (by positivity), hx, mul_comm, hundredths]

/-- The two places of a finite number. -/
theorem twoPlaces_fixedText (negative : Bool) (rank : Fin Format.single.infinityRank) :
    TwoPlaces negative (hundredths .single rank) (finite negative rank : Single).fixedText :=
  .fixedPoint negative _

/-- **Two places are correctly rounded.** -/
theorem shows_fixedText (u : BitVec 32) : ShowsRounded u (ofBits u : Single).fixedText where
  nan h := by
    rw [ofBits_eq_nan_iff.2 h]
    rfl
  infinite h := by
    rw [h]
    cases u.msb <;> rfl
  finite x h := by
    obtain ⟨rank, hu, hx⟩ := exists_of_toRat? h
    rw [hu]
    exact ⟨_, twoPlaces_fixedText u.msb rank, (isNearestInt_hundredths hx).2 rfl⟩

-- an eighth is as near to thirteen hundredths as to twelve
example : (ofBits 0x3E000000#32 : Single).fixedText = "0.12" := by decide +kernel

/-- Finite numbers print alike if they have one sign and are rounded to one number of hundredths. -/
theorem fixedText_eq_iff {u v : BitVec 32} {x y : Rat} (hx : (ofBits u : Single).toRat? = some x)
    (hy : (ofBits v : Single).toRat? = some y) :
    (ofBits u : Single).fixedText = (ofBits v : Single).fixedText ↔
      u.msb = v.msb ∧ ∃ n, IsNearestInt (100 * |x|) n ∧ IsNearestInt (100 * |y|) n := by
  obtain ⟨a, hu, hx⟩ := exists_of_toRat? hx
  obtain ⟨b, hv, hy⟩ := exists_of_toRat? hy
  rw [hu, hv]
  constructor
  · intro htext
    have hb := twoPlaces_fixedText v.msb b
    rw [← htext] at hb
    obtain ⟨hsign, hsame⟩ := (twoPlaces_fixedText u.msb a).inj hb
    exact ⟨hsign, _, (isNearestInt_hundredths hx).2 rfl,
      (isNearestInt_hundredths hy).2 (congrArg Nat.cast hsame)⟩
  · rintro ⟨hsign, n, hna, hnb⟩
    have hsame : hundredths .single a = hundredths .single b := by
      exact_mod_cast ((isNearestInt_hundredths hx).1 hna).symm.trans
        ((isNearestInt_hundredths hy).1 hnb)
    rw [fixedText, fixedText, textWith, textWith, hsign, hsame]

end Binary

/-- **Two places in a report are correctly rounded.**  A report shows its result and its torque with
two places.  What is shown of a number is its sign and the whole number of hundredths nearest to its
exact magnitude, in the form of `TwoPlaces`; a number that is not finite is shown by its name.  So
two finite numbers are shown alike exactly if their sign bits agree and a hundred times their
magnitudes round to the same whole number. -/
theorem Report.text_correctly_rounded :
    (∀ r : Report, ∃ rest, r.text =
      "result = " ++ r.result.fixedText ++ "\nhorsepower = " ++ intText r.horsepower ++
        "\ntorque = " ++ r.torque.fixedText ++ "\nCar: " ++ rest) ∧
    (∀ u : BitVec 32, ShowsRounded u (Binary.ofBits u : Single).fixedText) ∧
    ∀ (u v : BitVec 32) (x y : Rat), (Binary.ofBits u : Single).toRat? = some x →
      (Binary.ofBits v : Single).toRat? = some y →
      ((Binary.ofBits u : Single).fixedText = (Binary.ofBits v : Single).fixedText ↔
        u.msb = v.msb ∧ ∃ n, IsNearestInt (100 * |x|) n ∧ IsNearestInt (100 * |y|) n) := by
  refine ⟨fun r => ?_, Binary.shows_fixedText, fun u v x y => Binary.fixedText_eq_iff⟩
  refine ⟨r.color ++ ", maxSpeed=" ++ intText r.maxSpeed ++ ", weight=" ++ intText r.weight ++ "\n",
    ?_⟩
  rw [← String.toList_inj]
  simp [text, lines]

end Paddock
