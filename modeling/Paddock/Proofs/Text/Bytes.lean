import Mathlib.Data.List.TakeWhile
import Paddock.Delivery.Report

/-!
# Text — the bytes of a text

The bytes of a text are those of its characters, one character after another.  Only the NUL
character has a zero among its bytes, so a text that is stored with a zero behind it ends, for
whoever looks for the first zero, just before its first NUL (`takeWhile_bytesOf`).
-/

namespace Paddock

theorem bytesOf_eq_flatMap (s : String) : bytesOf s = s.toList.flatMap String.utf8EncodeChar := by
  have hs : s.toByteArray = s.toList.utf8Encode := by
    rw [← String.toByteArray_ofList, String.ofList_toList]
  rw [bytesOf, hs, List.utf8Encode, List.toList_data_toByteArray]

@[simp] theorem bytesOf_append (s t : String) : bytesOf (s ++ t) = bytesOf s ++ bytesOf t := by
  simp [bytesOf_eq_flatMap]

@[simp] theorem bytesOf_join (ss : List String) :
    bytesOf (String.join ss) = ss.flatMap bytesOf := by
  rw [bytesOf_eq_flatMap, String.toList_join, List.flatMap_assoc]
  exact congrArg (ss.flatMap ·) (funext bytesOf_eq_flatMap).symm

theorem bytesOf_injective : Function.Injective bytesOf := by
  intro s t h
  refine String.toByteArray_inj.1 (ByteArray.ext ?_)
  exact Array.toList_inj.1 h

/-- The part of a text before its first NUL. -/
def beforeNul (s : String) : String := String.ofList (s.toList.takeWhile (· != '\x00'))

theorem beforeNul_eq_self_iff {s : String} : beforeNul s = s ↔ '\x00' ∉ s.toList := by
  rw [beforeNul, ← String.toList_inj, String.toList_ofList, List.takeWhile_eq_self_iff]
  constructor
  · intro h hmem
    exact absurd (h _ hmem) (by decide)
  · rintro h c hc
    rw [bne_iff_ne]
    rintro rfl
    exact h hc

/-- Every byte of a character but NUL is positive. -/
theorem ne_zero_of_mem_utf8EncodeChar {c : Char} (hc : c ≠ '\x00') {b : UInt8}
    (hb : b ∈ String.utf8EncodeChar c) : b ≠ 0 := by
  have hval : c.val.toNat ≠ 0 := by
    intro hzero
    exact hc (Char.ext (UInt32.toNat_inj.1 hzero))
  obtain ⟨n, rfl, hpos, hlt⟩ : ∃ n, b = UInt8.ofNat n ∧ 0 < n ∧ n < 256 := by
    simp only [String.utf8EncodeChar] at hb
    split_ifs at hb with h₁ h₂ h₃ <;> simp only [List.mem_cons, List.not_mem_nil, or_false] at hb
    · exact ⟨_, hb, by omega, by omega⟩
    · rcases hb with hb | hb <;> exact ⟨_, hb, by omega, by omega⟩
    · rcases hb with hb | hb | hb <;> exact ⟨_, hb, by omega, by omega⟩
    · rcases hb with hb | hb | hb | hb <;> exact ⟨_, hb, by omega, by omega⟩
  intro hzero
  have := congrArg UInt8.toNat hzero
  rw [UInt8.toNat_ofNat', Nat.mod_eq_of_lt hlt] at this
  exact hpos.ne' this

/-- The bytes before the first zero are those of the part before the first NUL. -/
theorem takeWhile_bytesOf (s : String) :
    (bytesOf s ++ [0]).takeWhile (· != 0) = bytesOf (beforeNul s) := by
  rw [bytesOf_eq_flatMap, bytesOf_eq_flatMap, beforeNul, String.toList_ofList]
  induction s.toList with
  | nil => rfl
  | cons c cs ih =>
      by_cases hc : c = '\x00'
      · subst hc
        rfl
      · have hbytes : ∀ b ∈ String.utf8EncodeChar c, (b != 0) = true := fun b hb =>
          bne_iff_ne.2 (ne_zero_of_mem_utf8EncodeChar hc hb)
        have hhead : (c != '\x00') = true := bne_iff_ne.2 hc
        rw [List.flatMap_cons, List.append_assoc, List.takeWhile_append_of_pos hbytes, ih,
          List.takeWhile_cons, if_pos hhead, List.flatMap_cons]

end Paddock
