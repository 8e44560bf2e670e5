import Mathlib.Tactic.SplitIfs
import Paddock.Log.Directive

/-!
# Log — the words for levels

A level is written as a numeral or as a name, and the letter case of a name does not count
(`Verbosity.ofText?_map_toLower`).  The characters of such a word are digits, letters and perhaps a
plus sign in front (`Verbosity.mem_of_ofText?`), so none of them is a sign that separates the parts
of a directive, and all but the plus sign can begin a target.  What can begin a target is no blank
(`Layout.isBlank_of_startsTarget`).
-/

namespace Paddock

/-! ### Letter case -/

theorem toNat_toLower (c : Char) :
    c.toLower.toNat = if 65 ≤ c.toNat ∧ c.toNat ≤ 90 then c.toNat + 32 else c.toNat := by
  delta Char.toLower
  split_ifs with hupper hnat hnat
  · have hle : c.val.toNat ≤ 90 := hnat.2
    have hsum : (c.val + ('a'.val - 'A'.val)).toNat = c.val.toNat + 32 := by
      rw [UInt32.toNat_add, Nat.mod_eq_of_lt]
      · rfl
      · show c.val.toNat + 32 < 2 ^ 32
        omega
    exact hsum
  · exact absurd hupper hnat
  · exact absurd hnat hupper
  · rfl

/-- Only small letters come from other characters. -/
theorem toLower_eq_self {c : Char} (h : c.toLower.toNat < 97) : c.toLower = c := by
  refine Char.toNat_inj.1 ?_
  rw [toNat_toLower] at h ⊢
  split_ifs at h ⊢ with hupper
  · omega
  · rfl

theorem toLower_toLower (c : Char) : c.toLower.toLower = c.toLower := by
  refine Char.toNat_inj.1 ?_
  rw [toNat_toLower, if_neg]
  rw [toNat_toLower]
  split_ifs <;> omega

theorem isDigit_toLower (c : Char) : c.toLower.isDigit = c.isDigit := by
  rw [Bool.eq_iff_iff, isDigit_iff, isDigit_iff, toNat_toLower]
  split_ifs <;> omega

theorem toLower_of_isDigit {c : Char} (h : c.isDigit = true) : c.toLower = c := by
  rw [← isDigit_toLower, isDigit_iff] at h
  exact toLower_eq_self (by omega)

theorem isDigits_map_toLower (cs : List Char) : isDigits (cs.map Char.toLower) = isDigits cs := by
  rw [isDigits, isDigits, List.isEmpty_map, List.all_map]
  exact congrArg _ (congrArg (List.all cs) (funext isDigit_toLower))

theorem map_toLower_of_isDigits {cs : List Char} (h : isDigits cs = true) :
    cs.map Char.toLower = cs := by
  have hdigit := (isDigits_iff.1 h).2
  exact (List.map_congr_left fun c hc => toLower_of_isDigit (hdigit c hc)).trans (List.map_id' cs)

/-! ### Numerals -/

/-- The count that a row of digits writes. -/
def digitCount? (digits : List Char) : Option Nat :=
  if isDigits digits then some (Nat.ofDigitChars 10 digits 0) else none

theorem count?_of_head?_ne {cs : List Char} (h : cs.head? ≠ some '+') :
    count? cs = digitCount? cs := by
  rw [count?]
  · rfl
  · rintro digits rfl
    exact h rfl

theorem digitCount?_map_toLower (cs : List Char) :
    digitCount? (cs.map Char.toLower) = digitCount? cs := by
  rw [digitCount?, digitCount?, isDigits_map_toLower]
  split_ifs with h
  · rw [map_toLower_of_isDigits h]
  · rfl

/-- A plus sign is no letter, and no letter becomes one. -/
theorem head?_map_toLower_eq_plus {cs : List Char} :
    (cs.map Char.toLower).head? = some '+' ↔ cs.head? = some '+' := by
  rw [List.head?_map, Option.map_eq_some_iff]
  constructor
  · rintro ⟨c, hc, hlower⟩
    have hself : c.toLower = c := toLower_eq_self (by rw [hlower]; decide)
    rw [hc, ← hself, hlower]
  · intro h
    exact ⟨'+', h, rfl⟩

theorem count?_map_toLower (cs : List Char) : count? (cs.map Char.toLower) = count? cs := by
  by_cases h : cs.head? = some '+'
  · obtain ⟨digits, rfl⟩ := List.head?_eq_some_iff.1 h
    exact digitCount?_map_toLower digits
  · rw [count?_of_head?_ne h, count?_of_head?_ne (mt head?_map_toLower_eq_plus.1 h),
      digitCount?_map_toLower]

/-- The characters of a numeral. -/
theorem mem_of_count? {cs : List Char} {n : Nat} (h : count? cs = some n) {c : Char} (hc : c ∈ cs) :
    c = '+' ∨ c.isDigit = true := by
  have hdigit : ∀ {digits : List Char}, digitCount? digits = some n → c ∈ digits →
      c.isDigit = true := by
    intro digits hcount hmem
    rw [digitCount?] at hcount
    split_ifs at hcount with hdigits
    exact (isDigits_iff.1 hdigits).2 c hmem
  by_cases hplus : cs.head? = some '+'
  · obtain ⟨digits, rfl⟩ := List.head?_eq_some_iff.1 hplus
    rcases List.mem_cons.1 hc with rfl | hc
    · exact .inl rfl
    · exact .inr (hdigit h hc)
  · rw [count?_of_head?_ne hplus] at h
    exact .inr (hdigit h hc)

namespace Verbosity

/-! ### Levels -/

/-- **The letter case of a level does not count.** -/
theorem ofText?_map_toLower (word : List Char) :
    ofText? (word.map Char.toLower) = ofText? word := by
  have hlower : (word.map Char.toLower).map Char.toLower = word.map Char.toLower := by
    rw [List.map_map]
    exact List.map_congr_left fun c _ => toLower_toLower c
  rw [ofText?, ofText?, count?_map_toLower, hlower]

/-- The names of the levels. -/
def names : List String := ["off", "error", "warn", "info", "debug", "trace"]

theorem mem_names_of_ofName? {name : String} {v : Verbosity} (h : ofName? name = some v) :
    name ∈ names := by
  unfold ofName? at h
  split at h
  all_goals first | decide | cases h

/-- Whether a character is a letter of the basic alphabet. -/
def IsLetter (c : Char) : Prop := 97 ≤ c.toLower.toNat ∧ c.toLower.toNat ≤ 122

theorem isLetter_of_mem_names {name : String} (h : name ∈ names) {c : Char}
    (hc : c.toLower ∈ name.toList) : IsLetter c := by
  have hall : names.all (fun name =>
      name.toList.all fun c => 97 ≤ c.toNat ∧ c.toNat ≤ 122) = true := rfl
  have hrange := of_decide_eq_true (List.all_eq_true.1 (List.all_eq_true.1 hall name h) _ hc)
  exact hrange

/-- The characters of a word for a level. -/
theorem mem_of_ofText? {word : List Char} {v : Verbosity} (h : ofText? word = some v) {c : Char}
    (hc : c ∈ word) : c = '+' ∨ c.isDigit = true ∨ IsLetter c := by
  rw [ofText?] at h
  split at h
  · rename_i n hcount
    exact (mem_of_count? hcount hc).imp_right .inl
  · refine .inr (.inr (isLetter_of_mem_names (mem_names_of_ofName? h) ?_))
    rw [String.toList_ofList]
    exact List.mem_map_of_mem hc

theorem ne_nil_of_ofText? {word : List Char} {v : Verbosity} (h : ofText? word = some v) :
    word ≠ [] := by
  rintro rfl
  cases h

end Verbosity

/-! ### What begins and what ends a target -/

namespace Layout

theorem startsTarget_of_isDigit {c : Char} (h : c.isDigit = true) : startsTarget c = true := by
  rw [isDigit_iff] at h
  have hnumeric : isNumeric c = true := by
    rw [isNumeric, if_pos (by omega), numericBasic, inRanges, if_neg (by omega), decide_eq_true h.2,
      Bool.true_or]
  rw [startsTarget, isAlphanumeric, hnumeric, Bool.or_true, Bool.or_true]

theorem startsTarget_of_isLetter {c : Char} (h : Verbosity.IsLetter c) : startsTarget c = true := by
  have hcode : 65 ≤ c.toNat ∧ c.toNat ≤ 90 ∨ 97 ≤ c.toNat ∧ c.toNat ≤ 122 := by
    rw [Verbosity.IsLetter, toNat_toLower] at h
    split_ifs at h with hupper
    · exact .inl hupper
    · exact .inr h
  have halphabetic : isAlphabetic c = true := by
    rw [isAlphabetic, if_pos (by omega), alphabeticBasic, inRanges, if_neg (by omega), inRanges]
    rcases hcode with hcode | hcode
    · rw [decide_eq_true hcode.2, Bool.true_or]
    · rw [if_neg (by omega), decide_eq_true hcode.2, Bool.true_or, Bool.or_true]
  rw [startsTarget, isAlphanumeric, halphabetic, Bool.true_or, Bool.or_true]

/-- The code points of the blanks. -/
def blankCodes : List Nat := blanks.flatMap fun r => List.range' r.1 (r.2 + 1 - r.1)

theorem mem_blankCodes {c : Char} (h : isBlank c = true) : c.toNat ∈ blankCodes := by
  obtain ⟨r, hr, hle, hge⟩ := exists_range_of_inRanges h
  refine List.mem_flatMap.2 ⟨r, hr, List.mem_range'_1.2 ⟨hle, ?_⟩⟩
  omega

/-- No blank is a letter, a number or one of the signs that begin a target. -/
theorem all_blankCodes :
    blankCodes.all (fun n => n < 0x10000 && !inRanges n alphabeticBasic &&
      !inRanges n numericBasic && !List.contains ['-'.toNat, ':'.toNat, '_'.toNat] n) = true := by
  decide +kernel

/-- What can begin a target is no blank. -/
theorem isBlank_of_startsTarget {c : Char} (h : startsTarget c = true) : isBlank c = false := by
  refine Bool.eq_false_iff.2 fun hblank => ?_
  have hcode := List.all_eq_true.1 all_blankCodes _ (mem_blankCodes hblank)
  simp only [Bool.and_eq_true, decide_eq_true_iff, Bool.not_eq_true', List.contains_eq_mem,
    decide_eq_false_iff_not] at hcode
  obtain ⟨⟨⟨hlt, halphabetic⟩, hnumeric⟩, hsign⟩ := hcode
  have hclass : isAlphanumeric c = false := by
    rw [isAlphanumeric, isAlphabetic, isNumeric, if_pos hlt, if_pos hlt, halphabetic, hnumeric]
    rfl
  rw [startsTarget, hclass, Bool.or_false, List.contains_eq_mem, decide_eq_true_iff] at h
  exact hsign (List.mem_map_of_mem (f := Char.toNat) h)

end Layout

end Paddock
