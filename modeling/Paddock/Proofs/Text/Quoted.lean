import Paddock.Text.Pieces
import Paddock.Text.Quoted

/-!
# Text — quoted text is read in one way

A character stands in quoted text as itself, as a backslash and a letter, or as a backslash and its
number in braces (`escape_cases`).  What comes first decides which of the three it is, and no digit
is a closing brace, so the escapes of a text can be taken apart again from the front
(`eq_of_escape_append_eq`): different texts have different quoted texts
(`flatMap_escape_injective`).  No escape has a line break in it.
-/

namespace Paddock.Quoted

/-! ### Hexadecimal digits -/

theorem digitChar_injOn : ∀ m < 16, ∀ n < 16, Nat.digitChar m = Nat.digitChar n → m = n := by
  decide

theorem toDigits_of_le {n : Nat} (h : 16 ≤ n) :
    Nat.toDigits 16 n = Nat.toDigits 16 (n / 16) ++ [Nat.digitChar (n % 16)] :=
  Nat.toDigits_of_base_le (by decide) h

/-- A digit in front of another is not lost. -/
theorem toDigits_append_ne (n : Nat) (a b : Char) : Nat.toDigits 16 n ++ [a] ≠ [b] := by
  intro h
  have hfront := congrArg List.dropLast h
  rw [List.dropLast_concat] at hfront
  exact Nat.toDigits_ne_nil hfront

theorem toDigits_injective : Function.Injective (Nat.toDigits 16) := by
  intro m n h
  induction m using Nat.strongRecOn generalizing n with
  | _ m ih =>
      rcases Nat.lt_or_ge m 16 with hm | hm <;> rcases Nat.lt_or_ge n 16 with hn | hn
      · rw [Nat.toDigits_of_lt_base hm, Nat.toDigits_of_lt_base hn, List.cons.injEq] at h
        exact digitChar_injOn m hm n hn h.1
      · rw [Nat.toDigits_of_lt_base hm, toDigits_of_le hn] at h
        exact absurd h.symm (toDigits_append_ne _ _ _)
      · rw [toDigits_of_le hm, Nat.toDigits_of_lt_base hn] at h
        exact absurd h (toDigits_append_ne _ _ _)
      · rw [toDigits_of_le hm, toDigits_of_le hn] at h
        obtain ⟨hfront, hlast⟩ := List.append_inj' h rfl
        have hdiv := ih (m / 16) (by omega) hfront
        have hmod := digitChar_injOn _ (Nat.mod_lt m (by decide)) _ (Nat.mod_lt n (by decide))
          (List.cons.inj hlast).1
        omega

theorem exists_digit_of_mem_toDigits {n : Nat} {c : Char} (h : c ∈ Nat.toDigits 16 n) :
    ∃ d < 16, c = Nat.digitChar d := by
  induction n using Nat.strongRecOn with
  | _ n ih =>
      rcases Nat.lt_or_ge n 16 with hn | hn
      · rw [Nat.toDigits_of_lt_base hn] at h
        exact ⟨n, hn, List.mem_singleton.1 h⟩
      · rw [toDigits_of_le hn, List.mem_append] at h
        rcases h with h | h
        · exact ih (n / 16) (by omega) h
        · exact ⟨n % 16, Nat.mod_lt n (by decide), List.mem_singleton.1 h⟩

theorem notMem_hexDigits (sign : Char) (h : ∀ d < 16, Nat.digitChar d ≠ sign) (c : Char) :
    sign ∉ hexDigits c := by
  intro hmem
  obtain ⟨d, hd, heq⟩ := exists_digit_of_mem_toDigits hmem
  exact h d hd heq.symm

theorem hexDigits_inj {a b : Char} (h : hexDigits a = hexDigits b) : a = b :=
  Char.toNat_inj.1 (toDigits_injective h)

/-! ### Escapes -/

/-- The three ways in which a character stands in quoted text. -/
theorem escape_cases (c : Char) :
    (∃ l, letter? c = some l ∧ escape c = ['\\', l]) ∨
      letter? c = none ∧ escape c = ['\\', 'u', '\x7b'] ++ hexDigits c ++ ['\x7d'] ∨
      letter? c = none ∧ escape c = [c] := by
  cases hletter : letter? c with
  | some l => exact .inl ⟨l, rfl, by simp only [escape, hletter]⟩
  | none =>
      by_cases hhidden : isHidden c = true
      · exact .inr (.inl ⟨rfl, by simp only [escape, hletter, if_pos hhidden]⟩)
      · exact .inr (.inr ⟨rfl, by simp only [escape, hletter, if_neg hhidden]⟩)

theorem mem_of_letter? {c l : Char} (h : letter? c = some l) :
    (c, l) ∈ [('\x00', '0'), ('\t', 't'), ('\r', 'r'), ('\n', 'n'), ('"', '"'), ('\\', '\\')] := by
  unfold letter? at h
  split at h <;> cases h <;> simp

theorem eq_of_letter?_eq {a b l : Char} (ha : letter? a = some l) (hb : letter? b = some l) :
    a = b := by
  have ha := mem_of_letter? ha
  have hb := mem_of_letter? hb
  simp only [List.mem_cons, Prod.mk.injEq, List.not_mem_nil, or_false] at ha hb
  grind

/-- **The first escape of a text can be told.** -/
theorem eq_of_escape_append_eq {a b : Char} {s t : List Char} (h : escape a ++ s = escape b ++ t) :
    a = b ∧ s = t := by
  -- an escape begins with a backslash, and a character that stands for itself is none
  have hplain : letter? '\\' ≠ none := by decide
  have hletter : ∀ {c : Char}, letter? c ≠ some 'u' := fun hc => by
    simpa using mem_of_letter? hc
  rcases escape_cases a with ⟨l, ha, hea⟩ | ⟨ha, hea⟩ | ⟨ha, hea⟩ <;>
    rcases escape_cases b with ⟨l', hb, heb⟩ | ⟨hb, heb⟩ | ⟨hb, heb⟩ <;>
    rw [hea, heb] at h <;> simp only [List.cons_append, List.nil_append, List.append_assoc,
      List.cons.injEq, true_and] at h
  · obtain ⟨rfl, hst⟩ := h
    exact ⟨eq_of_letter?_eq ha hb, hst⟩
  · obtain ⟨rfl, -⟩ := h
    exact absurd ha hletter
  · obtain ⟨rfl, -⟩ := h
    exact absurd hb hplain
  · obtain ⟨rfl, -⟩ := h
    exact absurd hb hletter
  · have hbrace := notMem_hexDigits '\x7d' (by decide)
    have hpieces := congrArg (pieces '\x7d') h
    rw [pieces_append_cons (hbrace a), pieces_append_cons (hbrace b), List.cons.injEq] at hpieces
    obtain rfl := hexDigits_inj hpieces.1
    exact ⟨rfl, (List.cons.inj (List.append_cancel_left h)).2⟩
  · obtain ⟨rfl, -⟩ := h
    exact absurd hb hplain
  · obtain ⟨rfl, -⟩ := h
    exact absurd ha hplain
  · obtain ⟨rfl, -⟩ := h
    exact absurd ha hplain
  · exact h

theorem escape_ne_nil (c : Char) : escape c ≠ [] := by
  rcases escape_cases c with ⟨l, -, h⟩ | ⟨-, h⟩ | ⟨-, h⟩ <;> simp [h]

/-- **Different texts have different quoted texts.** -/
theorem flatMap_escape_injective : Function.Injective (List.flatMap escape) := by
  intro xs ys h
  induction xs generalizing ys with
  | nil =>
      cases ys with
      | nil => rfl
      | cons b ys => exact absurd (List.append_eq_nil_iff.1 h.symm).1 (escape_ne_nil b)
  | cons a xs ih =>
      cases ys with
      | nil => exact absurd (List.append_eq_nil_iff.1 h).1 (escape_ne_nil a)
      | cons b ys =>
          obtain ⟨rfl, hrest⟩ := eq_of_escape_append_eq h
          rw [ih hrest]

theorem newline_notMem_escape (c : Char) : '\n' ∉ escape c := by
  rcases escape_cases c with ⟨l, hl, h⟩ | ⟨-, h⟩ | ⟨hl, h⟩
  · have hmem := mem_of_letter? hl
    simp only [List.mem_cons, Prod.mk.injEq, List.not_mem_nil, or_false] at hmem
    rw [h]
    grind
  · have hdigits := notMem_hexDigits '\n' (by decide) c
    simp [h, hdigits]
  · have hc : c ≠ '\n' := by
      rintro rfl
      cases hl
    simpa [h] using hc.symm

theorem newline_notMem_encode (cs : List Char) : '\n' ∉ encode cs := by
  simp [encode, newline_notMem_escape]

end Paddock.Quoted
