import Mathlib.Data.List.TakeWhile
import Paddock.Proofs.Log.Word

/-!
# Log — the parts of a directive

The signs of a directive are looked for in its text without the blanks at the ends, and its parts
are cut out of the text with them, by byte offsets.

A text has one of three kinds of layout (`Layout.ofText?_cases`): a target or a level alone, a
target with a level, or one with brackets.  Brackets hold a span or a field, so only the first two
are layouts of a directive without them (`Directive.isSome_of_isRich`); for these two the directive
is given in closed form (`Directive.ofText?_of_bare`, `Directive.ofText?_of_bound`).
-/

namespace Paddock

/-! ### Blanks and offsets -/

/-- Trimming takes blanks off both ends. -/
theorem exists_trim_eq (cs : List Char) : ∃ front back,
    (∀ c ∈ front, isBlank c = true) ∧ (∀ c ∈ back, isBlank c = true) ∧
      cs = front ++ (trim cs ++ back) := by
  have hback : cs.dropWhile isBlank =
      trim cs ++ ((cs.dropWhile isBlank).reverse.takeWhile isBlank).reverse := by
    rw [trim, ← List.reverse_append, List.takeWhile_append_dropWhile, List.reverse_reverse]
  refine ⟨cs.takeWhile isBlank, ((cs.dropWhile isBlank).reverse.takeWhile isBlank).reverse,
    fun c hc => List.mem_takeWhile_imp hc,
    fun c hc => List.mem_takeWhile_imp (List.mem_reverse.1 hc), ?_⟩
  rw [← hback, List.takeWhile_append_dropWhile]

theorem mem_of_mem_trim {cs : List Char} {c : Char} (h : c ∈ trim cs) : c ∈ cs := by
  obtain ⟨front, back, -, -, hcs⟩ := exists_trim_eq cs
  rw [hcs]
  exact List.mem_append_right _ (List.mem_append_left _ h)

/-- Trimming reaches no further than to what is no blank. -/
theorem exists_trim_append_cons (xs ys : List Char) {d : Char}
    (hhead : ∀ c ∈ xs.head?, isBlank c = false) (hd : isBlank d = false) :
    ∃ zs, trim (xs ++ d :: ys) = xs ++ d :: zs := by
  have hfront : (xs ++ d :: ys).dropWhile isBlank = xs ++ d :: ys := by
    cases xs with
    | nil => exact List.dropWhile_cons_of_neg (by rw [hd]; decide)
    | cons c xs => exact List.dropWhile_cons_of_neg (by rw [hhead c rfl]; decide)
  have hstop : (d :: xs.reverse).dropWhile isBlank = d :: xs.reverse :=
    List.dropWhile_cons_of_neg (by rw [hd]; decide)
  have hback : (ys.reverse ++ d :: xs.reverse).dropWhile isBlank =
      ys.reverse.dropWhile isBlank ++ d :: xs.reverse := by
    rw [List.dropWhile_append, hstop]
    split_ifs with hempty
    · rw [List.isEmpty_iff.1 hempty, List.nil_append]
    · rfl
  refine ⟨(ys.reverse.dropWhile isBlank).reverse, ?_⟩
  rw [trim, hfront, List.reverse_append, List.reverse_cons, List.append_assoc,
    List.singleton_append, hback, List.reverse_append, List.reverse_cons, List.reverse_reverse,
    List.append_assoc, List.singleton_append]

/-- Where a text is cut, as many bytes stand in front as were asked for. -/
theorem exists_of_dropBytes? {n : Nat} {cs rest : List Char} (h : dropBytes? n cs = some rest) :
    ∃ front, cs = front ++ rest ∧ byteCount front = n := by
  induction cs generalizing n with
  | nil =>
      cases n with
      | zero => exact ⟨[], Option.some.inj h, rfl⟩
      | succ n => cases h
  | cons c cs ih =>
      cases n with
      | zero => exact ⟨[], Option.some.inj h, rfl⟩
      | succ n =>
          rw [dropBytes?] at h
          split_ifs at h with hsize
          obtain ⟨front, rfl, hfront⟩ := ih h
          exact ⟨c :: front, rfl, by rw [byteCount_cons, hfront]; omega⟩

theorem byteCount_append (xs ys : List Char) :
    byteCount (xs ++ ys) = byteCount xs + byteCount ys := by
  induction xs with
  | nil => rw [List.nil_append, byteCount_nil, Nat.zero_add]
  | cons c xs ih => rw [List.cons_append, byteCount_cons, byteCount_cons, ih, Nat.add_assoc]

theorem byteCount_pos {cs : List Char} (h : cs ≠ []) : 0 < byteCount cs := by
  obtain ⟨c, cs, rfl⟩ := List.exists_cons_of_ne_nil h
  have := c.utf8Size_pos
  rw [byteCount_cons]
  omega

/-- The text behind an equals sign. -/
theorem dropBytes?_equals (name word : List Char) :
    dropBytes? (byteCount name + 1) (name ++ '=' :: word) = some word := by
  have hcut := dropBytes?_append (name ++ ['=']) word
  rwa [byteCount_append, List.append_assoc] at hcut

/-! ### Layouts -/

namespace Layout

/-- Whether a text begins like a target. -/
def Begins (cs : List Char) : Prop := ∃ c rest, cs = c :: rest ∧ startsTarget c = true

instance : DecidablePred Begins
  | [] => isFalse (by rintro ⟨c, rest, h, -⟩; cases h)
  | c :: rest =>
    decidable_of_iff (startsTarget c = true)
      ⟨fun h => ⟨c, rest, rfl, h⟩, by rintro ⟨d, rest', ⟨⟩, h⟩; exact h⟩

theorem Begins.isBlank {cs : List Char} (h : Begins cs) :
    ∀ c ∈ cs.head?, Paddock.isBlank c = false := by
  obtain ⟨c, rest, rfl, hc⟩ := h
  rintro d ⟨⟩
  exact isBlank_of_startsTarget hc

/-- The first character is no blank, so trimming leaves a beginning of the text. -/
theorem Begins.trim {cs : List Char} (h : Begins cs) : Begins (trim cs) := by
  obtain ⟨c, rest, rfl, hc⟩ := h
  obtain ⟨zs, hzs⟩ := exists_trim_append_cons [] rest (by simp) (isBlank_of_startsTarget hc)
  exact ⟨c, zs, hzs, hc⟩

theorem endsTarget_eq_false_iff {c : Char} : endsTarget c = false ↔ c ≠ '=' ∧ c ≠ '[' := by
  rw [endsTarget, Bool.or_eq_false_iff, beq_eq_false_iff_ne, beq_eq_false_iff_ne]

theorem endsTarget_of_startsTarget {c : Char} (h : startsTarget c = true) :
    endsTarget c = false := by
  rw [endsTarget_eq_false_iff]
  constructor <;> rintro rfl <;> cases h

theorem endsTarget_of_isBlank {c : Char} (h : Paddock.isBlank c = true) : endsTarget c = false := by
  rw [endsTarget_eq_false_iff]
  constructor <;> rintro rfl <;> cases h

/-- What stands before the sign at the end of a target, and the sign with what follows it. -/
theorem takeWhile_endsTarget {name : List Char} (rest : List Char)
    (hname : ∀ c ∈ name, endsTarget c = false) (hrest : ∀ c ∈ rest.head?, endsTarget c = true) :
    (name ++ rest).takeWhile (!endsTarget ·) = name ∧
      (name ++ rest).dropWhile (!endsTarget ·) = rest := by
  have hall : ∀ c ∈ name, (!endsTarget c) = true := fun c hc => by rw [hname c hc]; rfl
  rw [List.takeWhile_append_of_pos hall, List.dropWhile_append_of_pos hall]
  cases rest with
  | nil => exact ⟨List.append_nil name, rfl⟩
  | cons c rest =>
      rw [List.takeWhile_cons, List.dropWhile_cons, hrest c rfl]
      exact ⟨List.append_nil name, rfl⟩

/-- A target alone. -/
theorem ofText?_bare {cs : List Char} (hbegins : Begins cs) (h : ∀ c ∈ cs, endsTarget c = false) :
    ofText? cs = some bare := by
  have hrest := (takeWhile_endsTarget [] h (by simp)).2
  obtain ⟨c, cs, rfl, hc⟩ := hbegins
  rw [List.append_nil] at hrest
  rw [ofText?]
  · simp only [hc, hrest]
    rfl
  · rintro rfl
    cases hc

/-- A target with a level behind it. -/
theorem ofText?_bound {name : List Char} (hbegins : Begins name)
    (h : ∀ c ∈ name, endsTarget c = false) (rest : List Char) :
    ofText? (name ++ '=' :: rest) =
      some (parts (some ⟨0, byteCount name⟩) none none (some (byteCount name + 1))) := by
  obtain ⟨hname, hrest⟩ := takeWhile_endsTarget ('=' :: rest) h (by rintro c ⟨⟩; rfl)
  obtain ⟨c, cs, rfl, hc⟩ := hbegins
  rw [List.cons_append] at hname hrest ⊢
  rw [ofText?]
  · simp only [hc, hname, hrest]
    rfl
  · rintro rfl
    cases hc

/-- Whether a layout has a span or a field. -/
def IsRich : Layout → Prop
  | bare => False
  | parts _ span field _ => span.isSome = true ∨ field.isSome = true

/-- Brackets hold a span or a field. -/
theorem isRich_of_bracketed? {target : Option Stretch} {offset : Nat} {cs : List Char}
    {layout : Layout} (h : bracketed? target offset cs = some layout) : layout.IsRich := by
  unfold bracketed? at h
  split at h
  · cases h
  · obtain ⟨level, -, rfl⟩ := Option.map_eq_some_iff.1 h
    exact .inl rfl
  · split at h
    · obtain ⟨level, -, rfl⟩ := Option.map_eq_some_iff.1 h
      exact .inr rfl
    · cases h

/-- A text has the layout of a target alone, of a target with a level, or one with brackets. -/
theorem ofText?_cases {cs : List Char} {layout : Layout} (h : ofText? cs = some layout) :
    layout.IsRich ∨ layout = bare ∧ Begins cs ∧ (∀ c ∈ cs, endsTarget c = false) ∨
      ∃ name rest, cs = name ++ '=' :: rest ∧ Begins name ∧ (∀ c ∈ name, endsTarget c = false) ∧
        layout = parts (some ⟨0, byteCount name⟩) none none (some (byteCount name + 1)) := by
  have hcs := List.takeWhile_append_dropWhile (p := (!endsTarget ·)) (l := cs)
  have hname : ∀ c ∈ cs.takeWhile (!endsTarget ·), endsTarget c = false := fun c hc => by
    simpa using List.mem_takeWhile_imp hc
  unfold ofText? at h
  split at h
  · cases h
  · exact .inl (isRich_of_bracketed? h)
  · rename_i c rest hc
    simp only at h
    split_ifs at h with hstarts
    have hstarts' : startsTarget c = true := by simpa using hstarts
    split at h
    · rename_i hnil
      rw [hnil, List.append_nil] at hcs
      refine .inr (.inl ⟨(Option.some.inj h).symm, ⟨c, rest, rfl, hstarts'⟩, ?_⟩)
      rwa [hcs] at hname
    · rename_i hequals
      rw [hequals] at hcs
      have hbegins : (c :: rest).takeWhile (!endsTarget ·) = c :: rest.takeWhile (!endsTarget ·) :=
        List.takeWhile_cons_of_pos (by rw [endsTarget_of_startsTarget hstarts']; rfl)
      exact .inr (.inr ⟨_, _, hcs.symm, ⟨c, _, hbegins, hstarts'⟩, hname,
        (Option.some.inj h).symm⟩)
    · exact .inl (isRich_of_bracketed? h)

end Layout

/-! ### Directives without spans and fields -/

namespace Directive

theorem ofText?_of_bare {cs : List Char} (h : Layout.ofText? (trim cs) = some .bare) :
    ofText? cs = some (ofWord cs) := by
  rw [ofText?, h]
  rfl

/-- A text without the signs that end a target is a word. -/
theorem ofText?_word {cs : List Char} (hbegins : Layout.Begins (trim cs))
    (h : ∀ c ∈ cs, Layout.endsTarget c = false) : ofText? cs = some (ofWord cs) :=
  ofText?_of_bare (Layout.ofText?_bare hbegins fun c hc => h c (mem_of_mem_trim hc))

/-- A directive with a target and a level is cut where its layout says. -/
theorem ofText?_of_bound {cs : List Char} {m n : Nat}
    (h : Layout.ofText? (trim cs) = some (.parts (some ⟨0, m⟩) none none (some n))) :
    ofText? cs = (takeBytes? m cs).bind fun name =>
      ((dropBytes? n cs).bind verbosityOf?).map (plain (String.ofList name)) := by
  have htarget : (Stretch.mk 0 m).of? cs = takeBytes? m cs := by
    cases cs <;> rfl
  rw [ofText?, h]
  simp only [Option.bind_eq_bind, Option.bind_some, Option.mapM_some, htarget]
  cases takeBytes? m cs with
  | none => rfl
  | some name =>
      cases (dropBytes? n cs).bind verbosityOf? with
      | none => rfl
      | some v => rfl

theorem isSome_of_mapM {α β : Type} {f : α → Option β} {o : Option α} {r : Option β}
    (h : o.mapM f = some r) : r.isSome = o.isSome := by
  cases o with
  | none =>
      obtain rfl := Option.some.inj h
      rfl
  | some a =>
      obtain ⟨b, -, rfl⟩ := Option.map_eq_some_iff.1 h
      rfl

/-- A span or a field of the layout is one of the directive. -/
theorem isSome_of_isRich {cs : List Char} {layout : Layout} {d : Directive}
    (hlayout : Layout.ofText? (trim cs) = some layout) (hrich : layout.IsRich)
    (h : ofText? cs = some d) : d.span.isSome = true ∨ d.field.isSome = true := by
  cases layout with
  | bare => cases hrich
  | parts target span field level =>
      rw [ofText?, hlayout] at h
      simp only [Option.bind_eq_bind, Option.bind_some, Option.bind_eq_some_iff] at h
      obtain ⟨name, -, spanText, hspan, fieldTest, hfield, h⟩ := h
      have hd : d.span = spanText.map String.ofList ∧ d.field = fieldTest := by
        cases level with
        | none =>
            obtain rfl := Option.some.inj h
            exact ⟨rfl, rfl⟩
        | some offset =>
            obtain ⟨v, -, h⟩ := Option.bind_eq_some_iff.1 h
            obtain rfl := Option.some.inj h
            exact ⟨rfl, rfl⟩
      rw [hd.1, hd.2, Option.isSome_map, isSome_of_mapM hspan, isSome_of_mapM hfield]
      exact hrich

end Directive

end Paddock
