import Paddock.Proofs.Decimal.Shortest
import Paddock.Text.Number
import Paddock.Text.Numeral

/-!
# Decimal — reading a written decimal

`ofText?` reads what a decimal floating constant is made of: digits with a point among them or an
exponent behind them, or both.  A row of digits alone is a whole number and is refused.  Both
written forms of a decimal are read as its value (`ofText?_positional`, `ofText?_scientific`),
though not always with the same coefficient: `positional` fills up with zeros.
-/

namespace Paddock

theorem isDigit_of_mem_digitsOf {n : Nat} {c : Char} (h : c ∈ digitsOf n) : c.isDigit = true :=
  Nat.isDigit_of_mem_toDigits (by decide) (by decide) h

theorem digitsOf_ne_nil (n : Nat) : digitsOf n ≠ [] := Nat.toDigits_ne_nil

theorem isDigits_digitsOf (n : Nat) : isDigits (digitsOf n) = true := by
  have hall : (digitsOf n).all Char.isDigit = true :=
    List.all_eq_true.2 fun _ => isDigit_of_mem_digitsOf
  rw [isDigits, hall, Bool.and_true, Bool.not_eq_true', List.isEmpty_eq_false_iff]
  exact digitsOf_ne_nil n

/-- Only zero is written with a leading zero. -/
theorem eq_zero_of_head?_digitsOf {n : Nat} (h : (digitsOf n).head? = some '0') : n = 0 := by
  induction n using Nat.strongRecOn with
  | _ n ih =>
      by_cases hn : n < 10
      · rw [digitsOf, Nat.toDigits_of_lt_base hn, List.head?_cons, Option.some.injEq] at h
        have hvalue := Nat.toNat_digitChar_sub_48_of_lt_ten hn
        rw [h] at hvalue
        exact hvalue.symm
      · -- the leading digit is the one of the quotient
        rw [digitsOf, Nat.toDigits_of_base_le (by decide) (by omega), List.head?_append_of_ne_nil _
          Nat.toDigits_ne_nil] at h
        have := ih (n / 10) (by omega) h
        omega

/-- The text of a whole number: a minus sign, if any, and the digits. -/
theorem toList_repr_int (e : Int) :
    e.repr.toList = (if e < 0 then ['-'] else []) ++ digitsOf e.natAbs := by
  cases e with
  | ofNat n => exact Nat.toList_repr
  | negSucc n =>
      rw [Int.repr, String.toList_append, Nat.toList_repr, if_pos (Int.negSucc_lt_zero n)]
      rfl

theorem eq_minus_or_isDigit_of_mem_repr {n : Int} {c : Char} (h : c ∈ n.repr.toList) :
    c = '-' ∨ c.isDigit = true := by
  rw [toList_repr_int, List.mem_append] at h
  rcases h with h | h
  · split at h
    · exact .inl (List.mem_singleton.1 h)
    · cases h
  · exact .inr (isDigit_of_mem_digitsOf h)

theorem toList_signText (negative : Bool) :
    (Binary.signText negative).toList = if negative then ['-'] else [] := by
  cases negative <;> rfl

/-- A point before the last two digits. -/
theorem fixedPoint_two (n : Nat) :
    fixedPoint 2 (digitsOf n) =
      digitsOf (n / 100) ++ ['.', Nat.digitChar (n / 10 % 10), Nat.digitChar (n % 10)] := by
  by_cases h₁ : n < 10
  · have hdigits : digitsOf n = [Nat.digitChar n] := Nat.toDigits_of_lt_base h₁
    have hquot : n / 100 = 0 ∧ n / 10 = 0 ∧ n % 10 = n := by omega
    rw [hdigits, hquot.1, hquot.2.1, hquot.2.2]
    rfl
  · have hlast : digitsOf n = digitsOf (n / 10) ++ [Nat.digitChar (n % 10)] :=
      Nat.toDigits_of_base_le (by decide) (by omega)
    by_cases h₂ : n < 100
    · have hdigits : digitsOf (n / 10) = [Nat.digitChar (n / 10)] :=
        Nat.toDigits_of_lt_base (by omega)
      have hquot : n / 100 = 0 ∧ n / 10 % 10 = n / 10 := by omega
      rw [hlast, hdigits, hquot.1, hquot.2]
      rfl
    · have hnext : digitsOf (n / 10) = digitsOf (n / 10 / 10) ++ [Nat.digitChar (n / 10 % 10)] :=
        Nat.toDigits_of_base_le (by decide) (by omega)
      have hquot : n / 10 / 10 = n / 100 := by omega
      have hne := List.length_pos_of_ne_nil (digitsOf_ne_nil (n / 100))
      rw [hlast, hnext, hquot, List.append_assoc]
      -- there are three digits at least, so nothing is filled up
      simp only [fixedPoint, List.length_append, List.cons_append, List.nil_append,
        List.length_cons, List.length_nil]
      rw [show 2 + 1 - ((digitsOf (n / 100)).length + (0 + 1 + 1)) = 0 by omega]
      simp

namespace Decimal

/-! ### The reader -/

/-- A whole number after at most one sign. -/
def signedDigits? : List Char → Option Int
  | '-' :: cs => if isDigits cs then some (-(digitsValue cs : Int)) else none
  | '+' :: cs => if isDigits cs then some (digitsValue cs) else none
  | cs => if isDigits cs then some (digitsValue cs) else none

/-- The power of ten behind the digits; nothing there is the power zero. -/
def exponent? : List Char → Option Int
  | [] => some 0
  | c :: cs => if c = 'e' ∨ c = 'E' then signedDigits? cs else none

/-- The decimal a floating constant without suffix writes. -/
def ofText? (cs : List Char) : Option Decimal :=
  let whole := cs.takeWhile Char.isDigit
  match cs.dropWhile Char.isDigit with
  | [] => none
  | '.' :: rest =>
    let fraction := rest.takeWhile Char.isDigit
    if (whole ++ fraction).isEmpty then none
    else (exponent? (rest.dropWhile Char.isDigit)).map fun e =>
      ⟨digitsValue (whole ++ fraction), e - (fraction.length : Int)⟩
  | rest =>
    if whole.isEmpty then none
    else (exponent? rest).map fun e => ⟨digitsValue whole, e⟩

theorem signedDigits?_repr (e : Int) : signedDigits? e.repr.toList = some e := by
  rw [toList_repr_int]
  split
  · rename_i hneg
    rw [List.singleton_append, signedDigits?, isDigits_digitsOf, if_pos rfl, digitsValue_digitsOf]
    exact congrArg some (by omega)
  · rename_i hpos
    have hhead : ∀ c ∈ (digitsOf e.natAbs).head?, c.isDigit = true :=
      fun c hc => isDigit_of_mem_digitsOf (List.mem_of_mem_head? hc)
    rw [List.nil_append, signedDigits?.eq_3, isDigits_digitsOf, if_pos rfl, digitsValue_digitsOf]
    · exact congrArg some (by omega)
    -- a digit is no sign
    · intro cs hcs
      simpa using hhead '-' (by simp [hcs])
    · intro cs hcs
      simpa using hhead '+' (by simp [hcs])

/-! ### Digits with a point -/

/-- Digits, a point, digits and an exponent or nothing. -/
theorem ofText?_point (whole fraction rest : List Char) (hw : ∀ c ∈ whole, c.isDigit = true)
    (hf : ∀ c ∈ fraction, c.isDigit = true) (hne : whole ≠ [])
    (hrest : ∀ c ∈ rest.head?, c.isDigit = false) :
    ofText? (whole ++ '.' :: (fraction ++ rest)) =
      (exponent? rest).map fun e =>
        ⟨digitsValue (whole ++ fraction), e - (fraction.length : Int)⟩ := by
  have hstop : rest.takeWhile Char.isDigit = [] ∧ rest.dropWhile Char.isDigit = rest := by
    cases rest with
    | nil => exact ⟨rfl, rfl⟩
    | cons c cs => simp [hrest c rfl]
  have hpoint : Char.isDigit '.' = false := rfl
  have hfull : (whole ++ fraction).isEmpty = false := by
    simp [hne]
  simp only [ofText?, List.takeWhile_append_of_pos hw, List.dropWhile_append_of_pos hw,
    List.takeWhile_append_of_pos hf, List.dropWhile_append_of_pos hf, hstop.1, hstop.2,
    List.takeWhile_cons, List.dropWhile_cons, hpoint, List.append_nil, Bool.false_eq_true,
    if_false, hfull]

/-- A point set into a row of digits leaves digits on both sides and the same digits altogether,
zeros in front aside. -/
theorem fixedPoint_eq (places : Nat) {digits : List Char} (h : ∀ c ∈ digits, c.isDigit = true) :
    ∃ whole fraction, fixedPoint places digits = whole ++ '.' :: fraction ∧ whole ≠ [] ∧
      fraction.length = places ∧ (∀ c ∈ whole, c.isDigit = true) ∧
      (∀ c ∈ fraction, c.isDigit = true) ∧
      digitsValue (whole ++ fraction) = digitsValue digits := by
  obtain ⟨padded, hpadded⟩ :
      ∃ padded, padded = List.replicate (places + 1 - digits.length) '0' ++ digits := ⟨_, rfl⟩
  have hlength : places + 1 ≤ padded.length := by
    rw [hpadded, List.length_append, List.length_replicate]
    omega
  have hdigit : ∀ c ∈ padded, c.isDigit = true := by
    intro c hc
    rw [hpadded, List.mem_append] at hc
    rcases hc with hc | hc
    · rw [List.eq_of_mem_replicate hc]
      rfl
    · exact h c hc
  refine ⟨padded.take (padded.length - places), padded.drop (padded.length - places), ?_, ?_, ?_,
    fun c hc => hdigit c (List.mem_of_mem_take hc), fun c hc => hdigit c (List.mem_of_mem_drop hc),
    ?_⟩
  · rw [fixedPoint, ← hpadded]
  · intro hnil
    have := congrArg List.length hnil
    rw [List.length_take, List.length_nil] at this
    omega
  · rw [List.length_drop]
    omega
  · rw [List.take_append_drop, hpadded, digitsValue_append, digitsValue_replicate_zero,
      Nat.mul_zero, Nat.zero_add]

theorem eq_point_or_isDigit_of_mem_fixedPoint {places : Nat} {digits : List Char}
    (hdigits : ∀ c ∈ digits, c.isDigit = true) {c : Char} (h : c ∈ fixedPoint places digits) :
    c = '.' ∨ c.isDigit = true := by
  obtain ⟨whole, fraction, heq, -, -, hwhole, hfraction, -⟩ := fixedPoint_eq places hdigits
  rw [heq, List.mem_append, List.mem_cons] at h
  rcases h with h | h | h
  · exact .inr (hwhole c h)
  · exact .inl h
  · exact .inr (hfraction c h)

theorem ofText?_fixedPoint (places : Nat) {digits : List Char}
    (h : ∀ c ∈ digits, c.isDigit = true) :
    ofText? (fixedPoint places digits) = some ⟨digitsValue digits, -(places : Int)⟩ := by
  obtain ⟨whole, fraction, heq, hne, hlength, hw, hf, hvalue⟩ := fixedPoint_eq places h
  have hread := ofText?_point whole fraction [] hw hf hne (by simp)
  rw [List.append_nil] at hread
  rw [heq, hread, hvalue, hlength, exponent?]
  simp

/-! ### The two written forms -/

variable (d : Decimal)

theorem isDigit_of_mem_digits {d : Decimal} {c : Char} (h : c ∈ d.digits) : c.isDigit = true :=
  isDigit_of_mem_digitsOf h

@[simp] theorem digitsValue_digits : digitsValue d.digits = d.coefficient :=
  digitsValue_digitsOf d.coefficient

theorem isDigit_of_mem_filled {zeros : Nat} {c : Char}
    (h : c ∈ d.digits ++ List.replicate zeros '0') : c.isDigit = true := by
  rcases List.mem_append.1 h with hc | hc
  · exact isDigit_of_mem_digits hc
  · rw [List.eq_of_mem_replicate hc]
    rfl

/-- Written positionally, a decimal is a row of digits with a point set into it. -/
theorem exists_positional_eq : ∃ places digits, d.positional = fixedPoint places digits ∧
    ∀ c ∈ digits, c.isDigit = true := by
  rw [positional]
  split
  · exact ⟨_, _, rfl, fun _ => isDigit_of_mem_digits⟩
  · exact ⟨_, _, rfl, fun _ => d.isDigit_of_mem_filled⟩

theorem eq_point_or_isDigit_of_mem_positional {d : Decimal} {c : Char} (h : c ∈ d.positional) :
    c = '.' ∨ c.isDigit = true := by
  obtain ⟨places, digits, heq, hdigits⟩ := d.exists_positional_eq
  rw [heq] at h
  exact eq_point_or_isDigit_of_mem_fixedPoint hdigits h

theorem ofText?_positional : ∃ e, ofText? d.positional = some e ∧ e.toRat = d.toRat := by
  rw [positional]
  split
  · rename_i hneg
    refine ⟨_, ofText?_fixedPoint _ fun _ => isDigit_of_mem_digits, ?_⟩
    have hexp : -(d.exponent.natAbs : Int) = d.exponent := by omega
    rw [digitsValue_digits, hexp]
  · rename_i hpos
    refine ⟨_, ofText?_fixedPoint _ fun _ => d.isDigit_of_mem_filled, ?_⟩
    -- one of the zeros stands behind the point
    have hexp : (10 : Rat) ^ d.exponent = 10 ^ d.exponent.natAbs := by
      rw [← zpow_natCast, Int.natAbs_of_nonneg (by omega)]
    rw [toRat, toRat, hexp, digitsValue_append, digitsValue_digits, digitsValue_replicate_zero,
      List.length_replicate, Nat.add_zero, pow_succ, Nat.cast_one, zpow_neg_one]
    push_cast
    ring

theorem ofText?_scientific : ∃ e, ofText? d.scientific = some e ∧ e.toRat = d.toRat := by
  have hdigit : ∀ c ∈ d.digits, c.isDigit = true := fun _ => isDigit_of_mem_digits
  have hvalue := d.digitsValue_digits
  have hlead : d.leadingExponent = d.exponent + (d.digits.length : Int) - 1 := rfl
  rw [scientific]
  cases hd : d.digits with
  | nil => exact absurd hd (digitsOf_ne_nil _)
  | cons first rest =>
      rw [hd] at hdigit hvalue hlead
      have hexp : exponent? ('e' :: d.leadingExponent.repr.toList) = some d.leadingExponent := by
        rw [exponent?, if_pos (Or.inl rfl), signedDigits?_repr]
      refine ⟨⟨digitsValue (first :: rest), d.leadingExponent - (rest.length : Int)⟩, ?_, ?_⟩
      · cases rest with
        | nil =>
            have hfirst : first.isDigit = true := hdigit first (by simp)
            have he : Char.isDigit 'e' = false := rfl
            simp [ofText?, hfirst, he, hexp]
        | cons second rest =>
            have hread := ofText?_point [first] (second :: rest)
              ('e' :: d.leadingExponent.repr.toList) (by simpa using hdigit first (by simp))
              (fun c hc => hdigit c (List.mem_cons_of_mem _ hc)) (by simp) (by rintro c ⟨⟩; rfl)
            rw [hexp] at hread
            simpa using hread
      · have hsame : d.leadingExponent - (rest.length : Int) = d.exponent := by
          rw [hlead, List.length_cons]
          push_cast
          omega
        rw [hvalue, hsame]

/-- **A written decimal is read as its value.** -/
theorem ofText?_text : ∃ e, ofText? d.text = some e ∧ e.toRat = d.toRat := by
  rw [text]
  split
  · exact d.ofText?_positional
  · exact d.ofText?_scientific

end Decimal

end Paddock
