import Paddock.Program.Showcase
import Paddock.Proofs.Binary.Pattern
import Paddock.Proofs.Decimal.Form
import Paddock.Proofs.Program.Constant

/-!
# Program — what literals look like

* A text literal cannot be left early.  A scanner that starts at its opening quote stops at its
  closing quote, whatever the text holds and whatever follows (`scanLiteral?_textLiteral`), so no
  text literal begins another one.
* A `float` literal of a finite number is a minus sign, if the sign bit is set, and the shortest
  decimal that rounds to the number, with the suffix `f`.
* It has a point unless it has an exponent behind a single digit (`point_mem_floatLiteral_iff`).  The
  torques of a showcase stand in its source text as such literals (`infix_source`).
-/

namespace Paddock.Program

/-! ### Text literals -/

/-- Reads until a text is complete; gives the text and the characters after its closing quote. -/
def scanText? : Mode → List Char → Option (String × List Char)
  | _, [] => none
  | m, c :: cs =>
    match step? m c with
    | some ([.text s], _) => some (s, cs)
    | some ([], n) => scanText? n cs
    | _ => none

/-- The text literal that some characters begin with; gives its text and the characters after it. -/
def scanLiteral? : List Char → Option (String × List Char)
  | '"' :: cs => scanText? (.text []) cs
  | _ => none

/-- What completes no token takes the scanner from mode to mode. -/
theorem scanText?_append {m n : Mode} {xs : List Char} (h : feed? m xs = some ([], n))
    (ys : List Char) : scanText? m (xs ++ ys) = scanText? n ys := by
  induction xs generalizing m with
  | nil =>
      obtain ⟨-, rfl⟩ := Prod.mk.inj (Option.some.inj h)
      rfl
  | cons c xs ih =>
      obtain ⟨us, o, vs, hstep, hfeed, hnil⟩ := feed?_cons_iff.1 h
      -- the whole completes no token, so neither do its first character and its rest
      obtain ⟨rfl, rfl⟩ := List.append_eq_nil_iff.1 hnil
      rw [List.cons_append, scanText?, hstep]
      exact ih hfeed

/-- The scanner stops at the closing quote and leaves the rest as it is. -/
theorem scanLiteral?_textLiteral (t : String) (rest : List Char) :
    scanLiteral? ((textLiteral t).toList ++ rest) = some (t, rest) := by
  have hsplit : (textLiteral t).toList ++ rest =
      '"' :: (t.toList.flatMap escape ++ '"' :: rest) := by
    simp [textLiteral, encodeText]
  rw [hsplit, scanLiteral?, scanText?_append (feed?_flatMap_escape [] t.toList), scanText?]
  simp [step?]

/-- One text literal begins another only if the two are of one text. -/
theorem eq_of_prefix_textLiteral {s t : String}
    (h : (textLiteral s).toList <+: (textLiteral t).toList) : s = t := by
  obtain ⟨rest, hrest⟩ := h
  have hs := scanLiteral?_textLiteral s rest
  have ht := scanLiteral?_textLiteral t []
  rw [List.append_nil, ← hrest, hs, Option.some.injEq, Prod.mk.injEq] at ht
  exact ht.1

/-- **A text literal cannot be broken out of.**  The scanner reads it as its text and stops where
it ends, whatever follows it.  So no text literal is the beginning of another, and different texts
have different literals. -/
theorem textLiteral_closed :
    (∀ (t : String) (rest : List Char),
        scanLiteral? ((textLiteral t).toList ++ rest) = some (t, rest)) ∧
      (∀ s t : String, (textLiteral s).toList <+: (textLiteral t).toList ↔ s = t) ∧
      Function.Injective textLiteral := by
  refine ⟨scanLiteral?_textLiteral, fun s t => ⟨eq_of_prefix_textLiteral, ?_⟩, fun s t h => ?_⟩
  · rintro rfl
    exact List.prefix_rfl
  · exact eq_of_prefix_textLiteral (h ▸ List.prefix_rfl)

/-! ### `float` literals -/

/-- **A `float` literal reads back exactly and is the shortest.**  Behind a minus sign, which stands
there exactly if the sign bit is set, it is a decimal floating constant with the suffix `f`.  The
decimal it writes rounds to the number bit for bit, no decimal with fewer significant digits does,
and it has an exponent exactly where the number is not plain. -/
theorem floatLiteral_reads_back (bits : BitVec 32)
    (h : (Binary.ofBits bits : Single).isFinite = true) :
    ∃ constant d,
      (floatLiteral (.ofBits bits)).toList =
        (if bits.msb then ['-'] else []) ++ constant ++ ['f'] ∧
      Decimal.ofText? constant = some d ∧
      (Binary.round bits.msb d.toRat : Single).toBits = bits ∧
      Decimal.IsShortest .single (Binary.patternRank (f := .single) bits) d ∧
      ('e' ∈ constant ↔ ¬Decimal.IsPlain (Binary.patternRank (f := .single) bits)) := by
  have hf : 0 < Format.single.fractionBits := by decide
  have hrank := Binary.isFinite_ofBits_iff.1 h
  have hbits := Binary.ofBits_of_lt hrank
  obtain ⟨d, hd, hvalue⟩ :=
    (Decimal.shortest .single (Binary.patternRank (f := .single) bits)).ofText?_text
  refine ⟨_, d, ?_, hd, ?_, ?_, Decimal.exponentMark_mem_text_shortest_iff _⟩
  · rw [hbits, toList_floatLiteral, floatChars, List.append_assoc]
  · have hround : Binary.round bits.msb d.toRat = Binary.ofBits (f := .single) bits := by
      rw [hvalue, hbits]
      exact Decimal.round_shortest bits.msb ⟨_, hrank⟩
    rw [hround]
    refine (Binary.ofBits_inj ?_).1 (Binary.ofBits_toBits hf _)
    rw [Binary.ofBits_toBits hf, hbits]
    intro hnan
    cases hnan
  · exact (Decimal.isShortest_shortest hf _).congr hvalue.symm

/-- The literal of the number next below zero, whose shortest decimal has a single digit. -/
theorem floatLiteral_reads_back_least :
    (Binary.ofBits 0x80000001 : Single).isFinite = true ∧
      ∃ constant d,
        (floatLiteral (.ofBits 0x80000001)).toList =
          (if (0x80000001 : BitVec 32).msb then ['-'] else []) ++ constant ++ ['f'] ∧
        Decimal.ofText? constant = some d ∧
        (Binary.round (0x80000001 : BitVec 32).msb d.toRat : Single).toBits = 0x80000001 ∧
        Decimal.IsShortest .single (Binary.patternRank (f := .single) 0x80000001) d ∧
        ('e' ∈ constant ↔ ¬Decimal.IsPlain (Binary.patternRank (f := .single) 0x80000001)) := by
  have h : (Binary.ofBits 0x80000001 : Single).isFinite = true := by decide +kernel
  exact ⟨h, floatLiteral_reads_back 0x80000001 h⟩

/-- The suffix closes a `float` literal. -/
theorem exists_floatLiteral_eq (negative : Bool) (rank : Fin Format.single.infinityRank) :
    ∃ front, (floatLiteral (.finite negative rank)).toList = front ++ ['f'] :=
  ⟨_, by rw [toList_floatLiteral, floatChars, ← List.append_assoc]⟩

/-- **A `float` literal has a point** if its number is plain, and otherwise exactly if no decimal of
a single digit rounds to the number. -/
theorem point_mem_floatLiteral_iff (negative : Bool) (rank : Fin Format.single.infinityRank) :
    '.' ∈ (floatLiteral (.finite negative rank)).toList ↔
      Decimal.IsPlain rank ∨
        ∀ d : Decimal, IsNearest (Binary.magnitude .single) d.toRat rank →
          1 < d.significantDigits := by
  have hsign : '.' ∉ if negative then ['-'] else [] := by
    cases negative <;> decide
  have hsuffix : '.' ∉ ['f'] := by decide
  have hshortest := Decimal.isShortest_shortest (f := .single) (by decide) rank
  have hdigits : 1 < (Decimal.shortest .single rank).significantDigits ↔
      ∀ d : Decimal, IsNearest (Binary.magnitude .single) d.toRat rank →
        1 < d.significantDigits :=
    ⟨fun h d hd => h.trans_le (hshortest.fewest d hd), fun h => h _ hshortest.roundsTo⟩
  rw [toList_floatLiteral, floatChars, List.mem_append, List.mem_append, or_iff_right hsign,
    or_iff_left hsuffix, Decimal.point_mem_text_shortest_iff, hdigits]

/-! ### Literals in a source text -/

theorem infix_append_right (front s : String) : s.toList <:+: (front ++ s).toList := by
  rw [String.toList_append]
  exact (List.suffix_append _ _).isInfix

theorem infix_append (front s back : String) : s.toList <:+: (front ++ s ++ back).toList := by
  rw [String.toList_append, String.toList_append]
  exact List.infix_append _ _ _

/-- A text stands in what it is joined into. -/
theorem infix_intercalate {s : String} (sep : String) {texts : List String} (h : s ∈ texts) :
    s.toList <:+: (String.intercalate sep texts).toList := by
  induction texts with
  | nil => cases h
  | cons t texts ih =>
      cases texts with
      | nil =>
          obtain rfl := List.mem_singleton.1 h
          simp
      | cons u texts =>
          rw [String.intercalate_cons_cons]
          rcases List.mem_cons.1 h with rfl | h
          · rw [String.toList_append, String.toList_append]
            exact ((List.prefix_append _ _).trans (List.prefix_append _ _)).isInfix
          · exact (ih h).trans (infix_append_right _ _)

/-- The members of a record initialiser stand in it. -/
theorem infix_text_record {members : List (String × Scalar)} {name : String} {value : Scalar}
    (h : (name, value) ∈ members) :
    (designator 0 name ++ literal value).toList <:+: (Initializer.record members).text.toList := by
  rw [Initializer.text]
  refine List.IsInfix.trans ?_ (infix_append _ _ _)
  exact infix_intercalate _ (List.mem_map.2 ⟨_, h, rfl⟩)

/-- The members of a global record stand in its definition. -/
theorem Global.infix_text {g : Global} {name : String} {value : Initializer}
    (h : (name, value) ∈ g.members) :
    (designator g.column name ++ value.text).toList <:+: g.text.toList := by
  have hline : (designator g.column name ++ value.text).toList <:+:
      ("    " ++ designator g.column name ++ value.text).toList := by
    rw [String.append_assoc]
    exact infix_append_right _ _
  rw [Global.text]
  refine List.IsInfix.trans (hline.trans ?_) (infix_append _ _ _)
  exact infix_intercalate _ (List.mem_map.2 ⟨_, h, rfl⟩)

/-- The definitions of the global records stand in the source text. -/
theorem infix_text_program {p : Program} {g : Global} (h : g ∈ p.globals) :
    g.text.toList <:+: p.text.toList := by
  have hglobal : g.text.toList <:+: (paragraphs (p.globals.map Global.text)).toList :=
    infix_intercalate "\n" (List.mem_map_of_mem h)
  have hinstances : (heading "instances" ++ paragraphs (p.globals.map Global.text)).toList <:+:
      p.text.toList := infix_intercalate "\n" (by simp)
  exact (hglobal.trans (infix_append_right _ _)).trans hinstances

end Paddock.Program

namespace Paddock.Showcase

/-- Both torques of a showcase stand in its source text as literals. -/
theorem infix_source (s : Showcase) {x : Single}
    (h : s.engine.torque = x ∨ s.car.engine.torque = x) :
    (".torque = " ++ Program.floatLiteral x).toList <:+: s.source.toList := by
  have hdesignator : ".torque = " = Program.designator 0 "torque" := by decide
  rw [hdesignator]
  rcases h with rfl | rfl
  · have hmember : ("torque", .scalar (.float s.engine.torque)) ∈
        (Program.engineGlobal s.engine).members := List.mem_cons_of_mem _ List.mem_cons_self
    exact (Program.Global.infix_text hmember).trans
      (Program.infix_text_program (p := s.program) List.mem_cons_self)
  · -- the engine of the car is a record within a record
    have htorque : ("torque", .float s.car.engine.torque) ∈
        Program.engineMembers s.car.engine := List.mem_cons_of_mem _ List.mem_cons_self
    have hengine : ("engine", .record (Program.engineMembers s.car.engine)) ∈
        (Program.carGlobal s.car).members := by simp [Program.carGlobal]
    have hcar : Program.carGlobal s.car ∈ s.program.globals := by simp [program]
    exact (Program.infix_text_record htorque).trans <| (Program.infix_append_right _ _).trans <|
      (Program.Global.infix_text hengine).trans (Program.infix_text_program hcar)

/-- **The form of a torque in the source text.**  A finite torque, of the standalone engine or of
the car, stands there as a literal that ends in `f`.  The literal has a point if the torque is plain,
and otherwise exactly if no decimal of a single digit rounds to it. -/
theorem source_torque_form (s : Showcase) (negative : Bool) (rank : Fin Format.single.infinityRank)
    (h : s.engine.torque = .finite negative rank ∨ s.car.engine.torque = .finite negative rank) :
    (".torque = " ++ Program.floatLiteral (.finite negative rank)).toList <:+: s.source.toList ∧
      (∃ front, (Program.floatLiteral (.finite negative rank)).toList = front ++ ['f']) ∧
      ('.' ∈ (Program.floatLiteral (.finite negative rank)).toList ↔ Decimal.IsPlain rank ∨
        ∀ d : Decimal, IsNearest (Binary.magnitude .single) d.toRat rank →
          1 < d.significantDigits) :=
  ⟨s.infix_source h, Program.exists_floatLiteral_eq negative rank,
    Program.point_mem_floatLiteral_iff negative rank⟩

/-- The largest finite torque, below zero and in the car. -/
theorem source_torque_form_largest :
    let rank : Fin Format.single.infinityRank := ⟨0x7f7fffff, by decide⟩
    let s : Showcase := ⟨⟨1, .nan⟩, ⟨2, 3, ⟨4, .finite true rank⟩, "red"⟩⟩
    (s.engine.torque = .finite true rank ∨ s.car.engine.torque = .finite true rank) ∧
      (".torque = " ++ Program.floatLiteral (.finite true rank)).toList <:+: s.source.toList ∧
      (∃ front, (Program.floatLiteral (.finite true rank)).toList = front ++ ['f']) ∧
      ('.' ∈ (Program.floatLiteral (.finite true rank)).toList ↔ Decimal.IsPlain rank ∨
        ∀ d : Decimal, IsNearest (Binary.magnitude .single) d.toRat rank →
          1 < d.significantDigits) :=
  ⟨.inr rfl, source_torque_form _ _ _ (.inr rfl)⟩

/-- A point is not always there: the literal of ten quadrillion has an exponent behind its only
digit. -/
theorem floatLiteral_without_point :
    let x : Single := .ofBits 0x5a0e1bca
    let s : Showcase := ⟨⟨1, x⟩, ⟨2, 3, ⟨4, x⟩, "red"⟩⟩
    x.isFinite = true ∧ (".torque = " ++ Program.floatLiteral x).toList <:+: s.source.toList ∧
      Program.floatLiteral x = "1e16f" ∧ '.' ∉ (Program.floatLiteral x).toList := by
  have hfinite : (Binary.ofBits 0x5a0e1bca : Single).isFinite = true := by decide +kernel
  have hliteral : Program.floatLiteral (.ofBits 0x5a0e1bca) = "1e16f" := by decide +kernel
  refine ⟨hfinite, infix_source _ (.inl rfl), hliteral, ?_⟩
  rw [hliteral]
  decide

end Paddock.Showcase
