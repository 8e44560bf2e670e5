/-!
# Text — cutting at byte offsets

Offsets into a text count the bytes of its UTF-8 form.  A text is cut only where a character ends:
an offset inside a character, or beyond the text, cuts nothing.
-/

namespace Paddock

/-- How many bytes a text takes. -/
def byteCount : List Char → Nat
  | [] => 0
  | c :: cs => c.utf8Size + byteCount cs

/-- The text before an offset. -/
def takeBytes? : Nat → List Char → Option (List Char)
  | 0, _ => some []
  | _ + 1, [] => none
  | n + 1, c :: cs =>
    if c.utf8Size ≤ n + 1 then (takeBytes? (n + 1 - c.utf8Size) cs).map (c :: ·) else none

/-- The text from an offset on. -/
def dropBytes? : Nat → List Char → Option (List Char)
  | 0, cs => some cs
  | _ + 1, [] => none
  | n + 1, c :: cs => if c.utf8Size ≤ n + 1 then dropBytes? (n + 1 - c.utf8Size) cs else none

/-- A part of a text, from one offset to another. -/
structure Stretch where
  first : Nat
  last : Nat
deriving DecidableEq

/-- The text of a stretch. -/
def Stretch.of? (s : Stretch) (cs : List Char) : Option (List Char) :=
  (dropBytes? s.first cs).bind (takeBytes? (s.last - s.first))

@[simp] theorem byteCount_nil : byteCount [] = 0 := rfl

@[simp] theorem byteCount_cons (c : Char) (cs : List Char) :
    byteCount (c :: cs) = c.utf8Size + byteCount cs := rfl

/-- Taking as many bytes as a beginning has gives the beginning. -/
@[simp] theorem takeBytes?_append (xs ys : List Char) :
    takeBytes? (byteCount xs) (xs ++ ys) = some xs := by
  induction xs with
  | nil => cases ys <;> rfl
  | cons c xs ih =>
    obtain ⟨n, hn⟩ := Nat.exists_eq_add_of_lt c.utf8Size_pos
    have hsum : byteCount (c :: xs) = (n + byteCount xs) + 1 := by
      rw [byteCount_cons, hn]; omega
    have hrest : (n + byteCount xs) + 1 - c.utf8Size = byteCount xs := by omega
    rw [hsum, List.cons_append, takeBytes?, if_pos (by omega), hrest, ih, Option.map_some]

/-- Dropping as many bytes as a beginning has leaves the rest. -/
@[simp] theorem dropBytes?_append (xs ys : List Char) :
    dropBytes? (byteCount xs) (xs ++ ys) = some ys := by
  induction xs with
  | nil => cases ys <;> rfl
  | cons c xs ih =>
    obtain ⟨n, hn⟩ := Nat.exists_eq_add_of_lt c.utf8Size_pos
    have hsum : byteCount (c :: xs) = (n + byteCount xs) + 1 := by
      rw [byteCount_cons, hn]; omega
    have hrest : (n + byteCount xs) + 1 - c.utf8Size = byteCount xs := by omega
    rw [hsum, List.cons_append, dropBytes?, if_pos (by omega), hrest, ih]

end Paddock
