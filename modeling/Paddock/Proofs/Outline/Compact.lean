import Paddock.Proofs.Outline.Token
import Paddock.Proofs.Program.Constant
import Paddock.Proofs.Record.Comparison

/-!
# Outline — one line identifies a record

The text of every scalar is one token: numbers are words, and a text is a quoted text.  A token
tells its scalar, because a number has a text of its own and no two texts have the same escapes.

So the outline of a record is clear, and its tokens can be taken off one after the other, whatever
stands behind them (`eq_of_tokens_append`).  This gives back every scalar, so a record is known from
its outline on one line (`compact_eq_iff_alike`).  Text in a color never ends the color, so nothing
in it can be taken for a further field.
-/

namespace Paddock

open Outline

/-! ### The texts of numbers -/

theorem Outline.isPlain_of_isDigit {c : Char} (h : c.isDigit = true) : isPlain c = true := by
  have hblank : isBlank c = false := by
    refine Bool.eq_false_iff.2 fun hmem => ?_
    obtain ⟨range, hrange, hfirst, hlast⟩ := exists_range_of_inRanges hmem
    have hapart : ∀ range ∈ blanks, range.2 < 48 ∨ 57 < range.1 := by decide
    have hdigit := isDigit_iff.1 h
    have hside := hapart range hrange
    omega
  have hne : ∀ d : Char, d.isDigit = false → c ≠ d := by
    rintro d hd rfl
    rw [h] at hd
    cases hd
  simp [isPlain, isBreak, isSign, hblank, hne]

theorem Outline.isPlain_repr (n : Int) : ∀ c ∈ n.repr.toList, isPlain c = true := by
  intro c hc
  rcases eq_minus_or_isDigit_of_mem_repr hc with rfl | hdigit
  · rfl
  · exact isPlain_of_isDigit hdigit

theorem Outline.isPlain_positional (d : Decimal) : ∀ c ∈ d.positional, isPlain c = true := by
  intro c hc
  rcases Decimal.eq_point_or_isDigit_of_mem_positional hc with rfl | hdigit
  · rfl
  · exact isPlain_of_isDigit hdigit

theorem Outline.isPlain_scientific (d : Decimal) : ∀ c ∈ d.scientific, isPlain c = true := by
  have hdigit : ∀ c ∈ d.digits, isPlain c = true := fun c hc =>
    isPlain_of_isDigit (Decimal.isDigit_of_mem_digits hc)
  have hpoint : isPlain '.' = true := rfl
  have hmark : isPlain 'e' = true := rfl
  intro c hc
  rw [Decimal.scientific, List.mem_append, List.mem_cons] at hc
  rcases hc with hc | rfl | hc
  · split at hc
    · cases hc
    · rename_i first hd
      exact hdigit c (hd ▸ hc)
    · -- the point behind the first of several digits is all that is added
      rename_i first rest hrest hd
      rw [hd, List.forall_mem_cons] at hdigit
      rcases List.mem_cons.1 hc with rfl | hc
      · exact hdigit.1
      · rcases List.mem_cons.1 hc with rfl | hc
        · exact hpoint
        · exact hdigit.2 c hc
  · exact hmark
  · exact isPlain_repr _ c hc

theorem Outline.isPlain_text (d : Decimal) : ∀ c ∈ d.text, isPlain c = true := by
  rw [Decimal.text]
  split
  · exact isPlain_positional d
  · exact isPlain_scientific d

/-- A written decimal is read back, and nothing cannot be. -/
theorem Decimal.text_ne_nil (d : Decimal) : d.text ≠ [] := by
  intro h
  obtain ⟨e, he, -⟩ := d.ofText?_text
  rw [h] at he
  cases he

theorem Outline.isWord_intText (n : Int32) : IsWord (intText n).toList := by
  refine ⟨fun h => ?_, isPlain_repr n.toInt⟩
  rw [intText, toList_repr_int, List.append_eq_nil_iff] at h
  exact digitsOf_ne_nil _ h.2

theorem Outline.IsWord.signText_append {s : String} (h : IsWord s.toList) (negative : Bool) :
    IsWord (Binary.signText negative ++ s).toList := by
  have hsign : ∀ c ∈ (Binary.signText negative).toList, isPlain c = true := by
    refine List.all_eq_true.1 ?_
    cases negative <;> rfl
  rw [String.toList_append]
  exact ⟨by simp [h.1], List.forall_mem_append.2 ⟨hsign, h.2⟩⟩

theorem Outline.isWord_exactText (x : Single) : IsWord x.exactText.toList := by
  cases x with
  | nan => exact isWord_of_all rfl rfl
  | inf negative => exact IsWord.signText_append (isWord_of_all rfl rfl) negative
  | finite negative rank =>
      refine IsWord.signText_append ?_ negative
      rw [String.toList_ofList]
      exact ⟨Decimal.text_ne_nil _, isPlain_text _⟩

/-! ### The tokens of scalars -/

theorem Outline.IsWord.isAtom {s : String} (h : IsWord s.toList) : IsAtom s (.word s.toList) where
  tokens?_append hrest := tokens?_word_append h hrest
  ne_sign := by simp
  newline_notMem := h.newline_notMem
  flush := h.flush

theorem Outline.isAtom_quotedText (s : String) :
    IsAtom (quotedText s) (.quoted (s.toList.flatMap Quoted.escape)) where
  tokens?_append _ := by rw [quotedText, String.toList_ofList, tokens?_encode_append]
  ne_sign := by simp
  newline_notMem := by
    rw [quotedText, String.toList_ofList]
    exact Quoted.newline_notMem_encode _
  flush := by
    rw [quotedText, String.toList_ofList]
    exact ⟨'"', rfl, by decide⟩

namespace Scalar

/-- The text of a scalar in an outline. -/
def outlineText : Scalar → String
  | int n => intText n
  | float x => x.exactText
  | text s => quotedText s

/-- The token of a scalar in an outline. -/
def token : Scalar → Token
  | int n => .word (intText n).toList
  | float x => .word x.exactText.toList
  | text s => .quoted (s.toList.flatMap Quoted.escape)

theorem isAtom_outlineText (a : Scalar) : IsAtom a.outlineText a.token := by
  cases a with
  | int n => exact (isWord_intText n).isAtom
  | float x => exact (isWord_exactText x).isAtom
  | text s => exact isAtom_quotedText s

@[simp] theorem token_int_inj {m n : Int32} : (int m).token = (int n).token ↔ m = n := by
  refine ⟨fun h => ?_, fun h => h ▸ rfl⟩
  have htext : intText m = intText n := String.toList_inj.1 (Token.word.inj h)
  exact int.inj (Program.literal_injective htext)

@[simp] theorem token_float_inj {x y : Single} : (float x).token = (float y).token ↔ x = y := by
  refine ⟨fun h => ?_, fun h => h ▸ rfl⟩
  have htext : x.exactText = y.exactText := String.toList_inj.1 (Token.word.inj h)
  exact float.inj (Program.literal_injective (congrArg (· ++ "f") htext))

@[simp] theorem token_text_inj {s t : String} : (text s).token = (text t).token ↔ s = t := by
  refine ⟨fun h => ?_, fun h => h ▸ rfl⟩
  exact String.toList_inj.1 (Quoted.flatMap_escape_injective (Token.quoted.inj h))

end Scalar

/-! ### The outlines of records are clear -/

theorem Scalar.clear_leaf (a : Scalar) : (Outline.leaf a.outlineText).Clear :=
  ⟨a.token, a.isAtom_outlineText⟩

theorem Engine.clear_outline (e : Engine) : e.outline.Clear :=
  ⟨isWord_of_all rfl rfl, isWord_of_all rfl rfl, (Scalar.int e.horsepower).clear_leaf,
    isWord_of_all rfl rfl, (Scalar.float e.torque).clear_leaf, trivial⟩

theorem Car.clear_outline (c : Car) : c.outline.Clear :=
  ⟨isWord_of_all rfl rfl, isWord_of_all rfl rfl, (Scalar.int c.maxSpeed).clear_leaf,
    isWord_of_all rfl rfl, (Scalar.int c.weight).clear_leaf, isWord_of_all rfl rfl,
    c.engine.clear_outline, isWord_of_all rfl rfl, (Scalar.text c.color).clear_leaf, trivial⟩

theorem Showcase.clear_outline (s : Showcase) : s.outline.Clear :=
  ⟨isWord_of_all rfl rfl, isWord_of_all rfl rfl, s.engine.clear_outline, isWord_of_all rfl rfl,
    s.car.clear_outline, trivial⟩

theorem Report.clear_outline (r : Report) : r.outline.Clear :=
  ⟨isWord_of_all rfl rfl, isWord_of_all rfl rfl, (Scalar.float r.result).clear_leaf,
    isWord_of_all rfl rfl, (Scalar.int r.horsepower).clear_leaf, isWord_of_all rfl rfl,
    (Scalar.float r.torque).clear_leaf, isWord_of_all rfl rfl, (Scalar.text r.color).clear_leaf,
    isWord_of_all rfl rfl, (Scalar.int r.maxSpeed).clear_leaf, isWord_of_all rfl rfl,
    (Scalar.int r.weight).clear_leaf, trivial⟩

/-- **The outline of every record is clear,** whatever its values. -/
theorem Record.clear_outline (x : Record) : x.outline.Clear := by
  cases x with
  | engine e => exact e.clear_outline
  | car c => exact c.clear_outline
  | showcase s => exact s.clear_outline
  | report r => exact r.clear_outline

/-! ### The tokens of records -/

@[simp] theorem Outline.tokens_int (n : Int32) (last : List Token) :
    (Outline.int n).tokens last = [(Scalar.int n).token] :=
  (Scalar.int n).isAtom_outlineText.tokens_leaf last

@[simp] theorem Outline.tokens_float (x : Single) (last : List Token) :
    (Outline.float x).tokens last = [(Scalar.float x).token] :=
  (Scalar.float x).isAtom_outlineText.tokens_leaf last

@[simp] theorem Outline.tokens_text (s : String) (last : List Token) :
    (Outline.text s).tokens last = [(Scalar.text s).token] :=
  (Scalar.text s).isAtom_outlineText.tokens_leaf last

section

variable {ts us : List Token}

theorem Engine.eq_of_tokens_append {e e' : Engine}
    (h : e.outline.tokens [] ++ ts = e'.outline.tokens [] ++ us) : e = e' ∧ ts = us := by
  obtain ⟨hhorsepower, htorque, hrest⟩ :
      e.horsepower = e'.horsepower ∧ e.torque = e'.torque ∧ ts = us := by
    simpa [outline, Fields.ofList, Outline.tokens, Fields.tokens] using h
  refine ⟨eq_of_related (related_scalars.2 ⟨?_, ?_⟩), hrest⟩
  · exact congrArg Scalar.int hhorsepower
  · exact congrArg Scalar.float htorque

theorem Car.eq_of_tokens_append {c c' : Car}
    (h : c.outline.tokens [] ++ ts = c'.outline.tokens [] ++ us) : c = c' ∧ ts = us := by
  simp only [outline, Fields.ofList, Outline.tokens, Fields.tokens, tokens_int, tokens_text,
    List.append_nil, List.cons_append, List.nil_append, List.append_assoc, List.cons.injEq,
    Scalar.token_int_inj, true_and] at h
  obtain ⟨hspeed, hweight, h⟩ := h
  obtain ⟨hengine, h⟩ := Engine.eq_of_tokens_append h
  obtain ⟨hcolor, hrest⟩ : c.color = c'.color ∧ ts = us := by simpa using h
  refine ⟨eq_of_related (related_scalars.2 ⟨?_, ?_, ?_, ?_⟩), hrest⟩
  · exact congrArg Scalar.int hspeed
  · exact congrArg Scalar.int hweight
  · exact hengine ▸ List.forall₂_same.2 fun _ _ => rfl
  · exact congrArg Scalar.text hcolor

theorem Showcase.eq_of_tokens_append {s s' : Showcase}
    (h : s.outline.tokens [] ++ ts = s'.outline.tokens [] ++ us) : s = s' ∧ ts = us := by
  simp only [outline, Fields.ofList, Outline.tokens, Fields.tokens, List.append_nil,
    List.cons_append, List.nil_append, List.append_assoc, List.cons.injEq, true_and] at h
  obtain ⟨hengine, h⟩ := Engine.eq_of_tokens_append h
  simp only [List.cons.injEq, true_and] at h
  obtain ⟨hcar, h⟩ := Car.eq_of_tokens_append h
  have hrest : ts = us := by simpa using h
  refine ⟨?_, hrest⟩
  cases s
  cases s'
  exact congrArg₂ Showcase.mk hengine hcar

theorem Report.eq_of_tokens_append {r r' : Report}
    (h : r.outline.tokens [] ++ ts = r'.outline.tokens [] ++ us) : r = r' ∧ ts = us := by
  obtain ⟨hresult, hhorsepower, htorque, hcolor, hspeed, hweight, hrest⟩ :
      r.result = r'.result ∧ r.horsepower = r'.horsepower ∧ r.torque = r'.torque ∧
        r.color = r'.color ∧ r.maxSpeed = r'.maxSpeed ∧ r.weight = r'.weight ∧ ts = us := by
    simpa [outline, Fields.ofList, Outline.tokens, Fields.tokens] using h
  refine ⟨eq_of_related (related_scalars.2 ⟨?_, ?_, ?_, ?_, ?_, ?_⟩), hrest⟩
  · exact congrArg Scalar.float hresult
  · exact congrArg Scalar.int hhorsepower
  · exact congrArg Scalar.float htorque
  · exact congrArg Scalar.text hcolor
  · exact congrArg Scalar.int hspeed
  · exact congrArg Scalar.int hweight

end

/-! ### One line -/

/-- The name in front of the fields of a record. -/
def RecordKind.name : RecordKind → String
  | engine => "Engine"
  | car => "Car"
  | showcase => "Showcase"
  | report => "Report"

theorem RecordKind.name_injective : Function.Injective name := by
  intro k k' h
  cases k <;> cases k' <;> first | rfl | exact absurd h (by decide)

namespace Record

theorem head?_tokens_outline (x : Record) :
    (x.outline.tokens []).head? = some (.word x.kind.name.toList) := by
  cases x <;> rfl

theorem eq_of_tokens_eq {x y : Record} (h : x.outline.tokens [] = y.outline.tokens []) : x = y := by
  have hkind : x.kind = y.kind := by
    have hhead := congrArg List.head? h
    rw [head?_tokens_outline, head?_tokens_outline, Option.some.injEq, Token.word.injEq,
      String.toList_inj] at hhead
    exact RecordKind.name_injective hhead
  have happend := congrArg (· ++ ([] : List Token)) h
  cases x <;> cases y <;> cases hkind
  · exact congrArg engine (Engine.eq_of_tokens_append happend).1
  · exact congrArg car (Car.eq_of_tokens_append happend).1
  · exact congrArg showcase (Showcase.eq_of_tokens_append happend).1
  · exact congrArg report (Report.eq_of_tokens_append happend).1

/-- **One line identifies a record.**  Two records have the same outline on one line exactly if they
are of one kind and alike in every scalar at any depth: floating-point numbers by their bits, with
all NaNs alike, and texts character by character. -/
theorem compact_eq_iff_alike (x y : Record) :
    x.outline.compact = y.outline.compact ↔ Fieldwise Scalar.Alike x y := by
  rw [← eq_iff_alike]
  constructor
  · intro h
    have htokens := tokens?_compact x.clear_outline
    rw [h, tokens?_compact y.clear_outline] at htokens
    exact eq_of_tokens_eq (Option.some.inj htokens).symm
  · rintro rfl
    rfl

end Record

end Paddock
