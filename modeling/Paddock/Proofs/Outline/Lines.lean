import Paddock.Proofs.Outline.Compact
import Paddock.Text.Pieces

/-!
# Outline — line by line

Over several lines an outline has one line for each scalar and two for each record, the one that
opens it and the one that closes it.  `Outline.lines` lists them with their levels, and `Nested`
checks the levels against the lines: the level of a line is the number of records that are open
around it.

Read as text, the lines with newlines between them are the outline (`joinPieces_lines`).  No line of
a clear outline holds a newline, and none has blanks beyond those of its level (`tidy_lines`).  So
cutting the text at its newlines gives back the lines, whatever the texts in it hold
(`pieces_pretty`).
-/

namespace Paddock

namespace Outline

/-! ### Lines -/

/-- What a line is for. -/
inductive Item where
  | opening (label : Option String) (name : String)
  | scalar (label : Option String) (text : String)
  | closing
deriving DecidableEq

/-- What a line is for and the number of records around it. -/
structure Line where
  level : Nat
  item : Item
deriving DecidableEq

/-- The characters of a label, if there is one. -/
def labelChars : Option String → List Char
  | none => []
  | some label => label.toList ++ [':', ' ']

/-- The characters of a line without its blanks in front and its comma. -/
def Item.chars : Item → List Char
  | opening label name => labelChars label ++ name.toList ++ [' ', '\x7b']
  | scalar label text => labelChars label ++ text.toList
  | closing => ['\x7d']

/-- The comma that ends a field; what stands at the margin is no field. -/
def comma (level : Nat) : List Char := if level = 0 then [] else [',']

/-- The characters behind a line: a record ends where it is closed. -/
def Item.tail : Item → Nat → List Char
  | opening _ _, _ => []
  | scalar _ _, level => comma level
  | closing, level => comma level

/-- The characters of a line, four blanks for each level in front. -/
def Line.text (line : Line) : List Char :=
  List.replicate (4 * line.level) ' ' ++ line.item.chars ++ line.item.tail line.level

/-- The label and the text of a scalar. -/
def Line.scalar? (line : Line) : Option (Option String × String) :=
  match line.item with
  | .scalar label text => some (label, text)
  | _ => none

/-- The label and the name of a record that is opened. -/
def Line.opening? (line : Line) : Option (Option String × String) :=
  match line.item with
  | .opening label name => some (label, name)
  | _ => none

/-- Whether every line stands at the level of the records that are open around it, when some are
open already, and all of them are closed in the end. -/
def Nested : Nat → List Line → Prop
  | depth, [] => depth = 0
  | depth, ⟨level, .opening _ _⟩ :: rest => level = depth ∧ Nested (depth + 1) rest
  | depth, ⟨level, .scalar _ _⟩ :: rest => level = depth ∧ Nested depth rest
  | depth, ⟨level, .closing⟩ :: rest => depth = level + 1 ∧ Nested level rest

/-- Every record that is opened is closed, so it has two lines; those that are open already have
one. -/
theorem Nested.length_eq {depth : Nat} {lines : List Line} (h : Nested depth lines) :
    lines.length = (lines.filterMap Line.scalar?).length +
      2 * (lines.filterMap Line.opening?).length + depth := by
  induction lines generalizing depth with
  | nil =>
      obtain rfl : depth = 0 := h
      rfl
  | cons line rest ih =>
      obtain ⟨level, item⟩ := line
      cases item with
      | opening label name =>
          have hrest := ih h.2
          simp only [List.filterMap_cons, Line.scalar?, Line.opening?, List.length_cons]
          omega
      | scalar label text =>
          have hrest := ih h.2
          simp only [List.filterMap_cons, Line.scalar?, Line.opening?, List.length_cons]
          omega
      | closing =>
          obtain ⟨rfl, hnested⟩ := h
          have hrest := ih hnested
          simp only [List.filterMap_cons, Line.scalar?, Line.opening?, List.length_cons]
          omega

end Outline

open Outline

/-! ### The lines of an outline -/

mutual

/-- The lines of an outline that stands at a level, behind a label if there is one. -/
def Outline.lines (level : Nat) (label : Option String) : Outline → List Line
  | .leaf text => [⟨level, .scalar label text⟩]
  | .node name fields =>
    ⟨level, .opening label name⟩ :: (fields.lines (level + 1) ++ [⟨level, .closing⟩])

/-- The lines of the fields that stand at a level. -/
def Fields.lines (level : Nat) : Fields → List Line
  | .nil => []
  | .cons label value rest => value.lines level (some label) ++ rest.lines level

end

theorem Outline.lines_ne_nil (level : Nat) (label : Option String) (o : Outline) :
    o.lines level label ≠ [] := by
  cases o <;> simp [Outline.lines]

/-! ### Levels -/

mutual

theorem Outline.nested_lines_append {rest : List Line} (level : Nat) (h : Nested level rest) :
    ∀ (label : Option String) (o : Outline), Nested level (o.lines level label ++ rest)
  | label, .leaf text => ⟨rfl, h⟩
  | label, .node name fields => by
      have hclosing : Nested (level + 1) (⟨level, .closing⟩ :: rest) := ⟨rfl, h⟩
      have hfields := Fields.nested_lines_append (level + 1) hclosing fields
      rw [Outline.lines, List.cons_append, List.append_assoc]
      exact ⟨rfl, hfields⟩

theorem Fields.nested_lines_append {rest : List Line} (level : Nat) (h : Nested level rest) :
    ∀ fs : Fields, Nested level (fs.lines level ++ rest)
  | .nil => h
  | .cons label value more => by
      have hmore := Fields.nested_lines_append level h more
      rw [Fields.lines, List.append_assoc]
      exact Outline.nested_lines_append level hmore (some label) value

end

theorem Outline.nested_lines (label : Option String) (o : Outline) :
    Nested 0 (o.lines 0 label) := by
  have hnil : Nested 0 [] := rfl
  have h := nested_lines_append 0 hnil label o
  rwa [List.append_nil] at h

/-! ### Characters -/

theorem toList_indent (level : Nat) : (indent level).toList = List.replicate (4 * level) ' ' :=
  String.toList_ofList

section

variable (level : Nat) (label : Option String) (s : String)

theorem Outline.Line.text_opening : (Line.mk level (.opening label s)).text =
    (indent level).toList ++ labelChars label ++ s.toList ++ [' ', '\x7b'] := by
  simp [Line.text, Item.chars, Item.tail, toList_indent]

theorem Outline.Line.text_scalar : (Line.mk level (.scalar label s)).text =
    (indent level).toList ++ labelChars label ++ s.toList ++ comma level := by
  simp [Line.text, Item.chars, Item.tail, toList_indent]

theorem Outline.Line.text_closing : (Line.mk level .closing).text =
    (indent level).toList ++ '\x7d' :: comma level := by
  simp [Line.text, Item.chars, Item.tail, toList_indent]

end

mutual

/-- The lines of an outline, each closed by a newline. -/
theorem Outline.flatMap_text_lines (level : Nat) : ∀ (label : Option String) (o : Outline),
    (o.lines level label).flatMap (fun line => line.text ++ ['\n']) =
      (indent level).toList ++ labelChars label ++ (o.prettyAt level).toList ++ comma level ++
        ['\n']
  | label, .leaf text => by simp [Outline.lines, Line.text_scalar, Outline.prettyAt]
  | label, .node name fields => by
      have hfields := Fields.flatMap_text_lines level fields
      simp [Outline.lines, Line.text_opening, Line.text_closing, Outline.prettyAt, hfields]

theorem Fields.flatMap_text_lines (level : Nat) : ∀ fs : Fields,
    (fs.lines (level + 1)).flatMap (fun line => line.text ++ ['\n']) =
      (fs.prettyAt (level + 1)).toList
  | .nil => rfl
  | .cons label value more => by
      have hvalue := Outline.flatMap_text_lines (level + 1) (some label) value
      have hmore := Fields.flatMap_text_lines level more
      simp [Fields.lines, Fields.prettyAt, hvalue, hmore, labelChars, comma]

end

/-- Closing every piece by a separator is joining them and closing the last. -/
theorem flatMap_concat_eq_joinPieces (sep : Char) {texts : List (List Char)} (h : texts ≠ []) :
    texts.flatMap (fun text => text ++ [sep]) = joinPieces sep texts ++ [sep] := by
  induction texts with
  | nil => exact absurd rfl h
  | cons text rest ih =>
      cases rest with
      | nil => simp [joinPieces]
      | cons next rest =>
          have hjoin : joinPieces sep (text :: next :: rest) =
              text ++ sep :: joinPieces sep (next :: rest) := rfl
          rw [List.flatMap_cons, ih (List.cons_ne_nil _ _), hjoin]
          simp

/-- **An outline over several lines is its lines,** with newlines between them. -/
theorem Outline.joinPieces_lines (o : Outline) :
    joinPieces '\n' ((o.lines 0 none).map Line.text) = o.pretty.toList := by
  have hne : (o.lines 0 none).map Line.text ≠ [] := by simp [lines_ne_nil]
  have hjoin := flatMap_concat_eq_joinPieces '\n' hne
  rw [List.flatMap_map, flatMap_text_lines] at hjoin
  simpa [labelChars, comma, indent, pretty] using hjoin.symm

/-! ### Tidy lines -/

/-- A line holds no newline, and its blanks in front are those of its level. -/
structure Outline.Line.Tidy (line : Line) : Prop where
  newline_notMem : '\n' ∉ line.text
  flush : Flush line.item.chars

theorem Outline.newline_notMem_comma (level : Nat) : '\n' ∉ comma level := by
  unfold comma
  split <;> simp

theorem Outline.newline_notMem_labelChars {label : Option String}
    (h : ∀ l ∈ label, IsWord l.toList) : '\n' ∉ labelChars label := by
  cases label with
  | none => exact List.not_mem_nil
  | some l => simp [labelChars, (h l rfl).newline_notMem]

theorem Outline.flush_labelChars_append {label : Option String}
    (h : ∀ l ∈ label, IsWord l.toList) {cs : List Char} (hcs : Flush cs) :
    Flush (labelChars label ++ cs) := by
  cases label with
  | none => exact hcs
  | some l =>
      rw [labelChars, List.append_assoc]
      exact (h l rfl).flush.append _

theorem Outline.tidy_closing (level : Nat) : (Line.mk level .closing).Tidy where
  newline_notMem := by simp [Line.text_closing, toList_indent, newline_notMem_comma]
  flush := ⟨'\x7d', rfl, by decide⟩

mutual

theorem Outline.tidy_lines (level : Nat) : ∀ {label : Option String} {o : Outline},
    (∀ l ∈ label, IsWord l.toList) → o.Clear → ∀ line ∈ o.lines level label, line.Tidy
  | label, .leaf text, hlabel, h => by
      obtain ⟨t, ht⟩ := h
      rw [Outline.lines, List.forall_mem_singleton]
      refine ⟨?_, flush_labelChars_append hlabel ht.flush⟩
      simp [Line.text_scalar, toList_indent, newline_notMem_labelChars hlabel, ht.newline_notMem,
        newline_notMem_comma]
  | label, .node name fields, hlabel, h => by
      rw [Outline.lines, List.forall_mem_cons, List.forall_mem_append, List.forall_mem_singleton]
      refine ⟨⟨?_, ?_⟩, Fields.tidy_lines (level + 1) h.2, tidy_closing level⟩
      · simp [Line.text_opening, toList_indent, newline_notMem_labelChars hlabel,
          h.1.newline_notMem]
      · rw [Item.chars, List.append_assoc]
        exact flush_labelChars_append hlabel (h.1.flush.append _)

theorem Fields.tidy_lines (level : Nat) : ∀ {fs : Fields}, fs.Clear →
    ∀ line ∈ fs.lines level, line.Tidy
  | .nil, _ => by simp [Fields.lines]
  | .cons label value more, h => by
      rw [Fields.lines, List.forall_mem_append]
      refine ⟨Outline.tidy_lines level ?_ h.2.1, Fields.tidy_lines level h.2.2⟩
      rintro l ⟨⟩
      exact h.1

end

/-- **Cutting a clear outline at its newlines gives back its lines.** -/
theorem Outline.pieces_pretty {o : Outline} (h : o.Clear) :
    pieces '\n' o.pretty.toList = (o.lines 0 none).map Line.text := by
  rw [← joinPieces_lines]
  refine pieces_joinPieces (by simp [lines_ne_nil]) fun text htext => ?_
  obtain ⟨line, hline, rfl⟩ := List.mem_map.1 htext
  exact (tidy_lines 0 (by simp) h line hline).newline_notMem

theorem Outline.getLast?_pretty (name : String) (fields : Fields) :
    (Outline.node name fields).pretty.toList.getLast? = some '\x7d' := by
  rw [pretty, prettyAt, String.toList_append]
  exact List.getLast?_concat

/-! ### The lines of a record -/

namespace Record

/-- The records in a record at any depth, itself first, with the labels they stand at. -/
def parts : Record → List (Option String × RecordKind)
  | engine _ => [(none, .engine)]
  | car _ => [(none, .car), (some "engine", .engine)]
  | showcase _ =>
    [(none, .showcase), (some "engine", .engine), (some "car", .car), (some "engine", .engine)]
  | report _ => [(none, .report)]

theorem scalar?_lines (x : Record) :
    (x.outline.lines 0 none).filterMap Line.scalar? =
      x.scalars.map fun a => (some a.1, a.2.outlineText) := by
  cases x <;> rfl

theorem opening?_lines (x : Record) :
    (x.outline.lines 0 none).filterMap Line.opening? = x.parts.map fun a => (a.1, a.2.name) := by
  cases x <;> rfl

/-- **A record reads the same on one line and over several.**  Both texts have the same tokens, once
the commas before closing braces are dropped.  Cut at its newlines, the longer text has one line for
every scalar and two for every record, at any depth; each line stands four blanks to the right for
every record around it, and the text ends with the brace that closes the record. -/
theorem pretty_agrees_with_compact (x : Record) :
    (∃ ts, (tokens? x.outline.compact.toList).map dropClosingCommas = some ts ∧
      (tokens? x.outline.pretty.toList).map dropClosingCommas = some ts) ∧
    (∃ lines : List Line,
      pieces '\n' x.outline.pretty.toList = lines.map Line.text ∧
      Nested 0 lines ∧
      (∀ line ∈ lines, Flush line.item.chars) ∧
      lines.filterMap Line.scalar? = x.scalars.map (fun a => (some a.1, a.2.outlineText)) ∧
      lines.filterMap Line.opening? = x.parts.map (fun a => (a.1, a.2.name)) ∧
      lines.length = x.scalars.length + 2 * x.parts.length) ∧
    x.outline.pretty.toList.getLast? = some '\x7d' := by
  have hclear := x.clear_outline
  have hdrop := dropClosingCommas_tokens hclear
  refine ⟨⟨x.outline.tokens [], ?_, ?_⟩, ⟨x.outline.lines 0 none, pieces_pretty hclear,
    nested_lines none x.outline, fun line hline => (tidy_lines 0 (by simp) hclear line hline).flush,
    x.scalar?_lines, x.opening?_lines, ?_⟩, ?_⟩
  · rw [tokens?_compact hclear, Option.map_some, hdrop.1]
  · rw [tokens?_pretty hclear, Option.map_some, hdrop.2]
  · have hlength := (nested_lines none x.outline).length_eq
    rwa [scalar?_lines, opening?_lines, List.length_map, List.length_map, Nat.add_zero] at hlength
  · cases x <;> exact getLast?_pretty _ _

end Record

end Paddock
