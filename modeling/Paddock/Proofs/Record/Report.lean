import Mathlib.Data.List.DropRight
import Paddock.Proofs.Decimal.Reader
import Paddock.Record.Outline

/-!
# Record — reading a report

The color stands as it is in the last line of a report, and it may hold anything: newlines, a
`, maxSpeed=` of its own, a whole report.  The text is unambiguous all the same.  Three numbers come
before the color and two after it, and no text of a number holds a newline or an equals sign.  So
the first three newlines and the last two equals signs are never those of the color, and a reader
that takes the first three lines from the front and the last two fields from the back finds the
color between them (`ofText?_text`).

A newline of the color is the only one that is not the end of a line, so a report has four lines
exactly if its color has none (`hasLines_text_iff`).
-/

namespace Paddock

/-! ### The signs of a number -/

/-- Whether a character can stand in the text of a number. -/
def isNumberSign (c : Char) : Bool := c.isDigit || ['-', '.', 'N', 'a', 'i', 'n', 'f'].contains c

theorem isNumberSign_of_isDigit {c : Char} (h : c.isDigit = true) : isNumberSign c = true := by
  rw [isNumberSign, h, Bool.true_or]

theorem isNumberSign_intText (n : Int32) : ∀ c ∈ (intText n).toList, isNumberSign c = true := by
  intro c hc
  rcases eq_minus_or_isDigit_of_mem_repr hc with rfl | hdigit
  · rfl
  · exact isNumberSign_of_isDigit hdigit

theorem isNumberSign_signText (negative : Bool) :
    ∀ c ∈ (Binary.signText negative).toList, isNumberSign c = true := by
  refine List.all_eq_true.1 ?_
  cases negative <;> rfl

theorem isNumberSign_fixedPoint (places n : Nat) :
    ∀ c ∈ fixedPoint places (digitsOf n), isNumberSign c = true := by
  intro c hc
  rcases Decimal.eq_point_or_isDigit_of_mem_fixedPoint (fun _ => isDigit_of_mem_digitsOf) hc with
    rfl | hdigit
  · rfl
  · exact isNumberSign_of_isDigit hdigit

theorem isNumberSign_fixedText (x : Single) : ∀ c ∈ x.fixedText.toList, isNumberSign c = true := by
  cases x with
  | nan => exact List.all_eq_true.1 rfl
  | inf negative =>
      refine List.all_eq_true.1 ?_
      cases negative <;> rfl
  | finite negative rank =>
      intro c hc
      rw [Binary.fixedText, Binary.textWith, String.toList_append, String.toList_ofList,
        List.mem_append] at hc
      exact hc.elim (isNumberSign_signText negative c) (isNumberSign_fixedPoint 2 _ c)

theorem notMem_of_isNumberSign {cs : List Char} (h : ∀ c ∈ cs, isNumberSign c = true) {c : Char}
    (hc : isNumberSign c = false) : c ∉ cs := by
  intro hmem
  rw [h c hmem] at hc
  cases hc

theorem newline_notMem_intText (n : Int32) : '\n' ∉ (intText n).toList :=
  notMem_of_isNumberSign (isNumberSign_intText n) rfl

theorem equals_notMem_intText (n : Int32) : '=' ∉ (intText n).toList :=
  notMem_of_isNumberSign (isNumberSign_intText n) rfl

theorem newline_notMem_fixedText (x : Single) : '\n' ∉ x.fixedText.toList :=
  notMem_of_isNumberSign (isNumberSign_fixedText x) rfl

/-! ### The reader -/

namespace Report

/-- What a report shows: two numbers by their texts, the others as they are. -/
structure Shown where
  result : String
  horsepower : Int32
  torque : String
  color : String
  maxSpeed : Int32
  weight : Int32
deriving DecidableEq

/-- What a report shows of its values. -/
def shown (r : Report) : Shown where
  result := r.result.fixedText
  horsepower := r.horsepower
  torque := r.torque.fixedText
  color := r.color
  maxSpeed := r.maxSpeed
  weight := r.weight

/-- The whole number that a text is. -/
def int? (cs : List Char) : Option Int32 := (Decimal.signedDigits? cs).map Int32.ofInt

/-- The value of the first line, which starts with a label, and the lines after it. -/
def firstLine? (label : String) (cs : List Char) : Option (List Char × List Char) := do
  let line ← label.toList.isPrefixOf? cs
  let '\n' :: rest := line.dropWhile (· != '\n') | none
  return (line.takeWhile (· != '\n'), rest)

/-- What stands before the last field, which starts with a label, and the value of the field.  The
value is what stands after the last equals sign. -/
def lastField? (label : String) (cs : List Char) : Option (List Char × List Char) := do
  let rest ← label.toList.isSuffixOf? (cs.rdropWhile (· != '='))
  return (rest, cs.rtakeWhile (· != '='))

/-- What the report with some text shows. -/
def Shown.ofText? (text : String) : Option Shown := do
  let (result, cs) ← firstLine? "result = " text.toList
  let (horsepower, cs) ← firstLine? "horsepower = " cs
  let (torque, cs) ← firstLine? "torque = " cs
  let cs ← "Car: ".toList.isPrefixOf? cs
  let cs ← "\n".toList.isSuffixOf? cs
  let (cs, weight) ← lastField? ", weight=" cs
  let (color, maxSpeed) ← lastField? ", maxSpeed=" cs
  return {
    result := String.ofList result
    horsepower := ← int? horsepower
    torque := String.ofList torque
    color := String.ofList color
    maxSpeed := ← int? maxSpeed
    weight := ← int? weight }

/-! ### Reading undoes writing -/

theorem int?_intText (n : Int32) : int? (intText n).toList = some n := by
  rw [int?, intText, Decimal.signedDigits?_repr, Option.map_some, Int32.ofInt_toInt]

theorem firstLine?_append (label : String) {value : List Char} (rest : List Char)
    (h : '\n' ∉ value) :
    firstLine? label (label.toList ++ (value ++ '\n' :: rest)) = some (value, rest) := by
  have hlabel : label.toList.isPrefixOf? (label.toList ++ (value ++ '\n' :: rest)) =
      some (value ++ '\n' :: rest) := List.isPrefixOf?_eq_some_iff_append_eq.2 rfl
  have hvalue : ∀ c ∈ value, (c != '\n') = true := fun c hc =>
    bne_iff_ne.2 fun heq => h (heq ▸ hc)
  have hdrop : (value ++ '\n' :: rest).dropWhile (· != '\n') = '\n' :: rest :=
    List.dropWhile_append_of_pos hvalue
  have htake : (value ++ '\n' :: rest).takeWhile (· != '\n') = value := by
    rw [List.takeWhile_append_of_pos hvalue]
    exact List.append_nil value
  rw [firstLine?, hlabel, Option.bind_eq_bind, Option.bind_some, hdrop, htake]
  rfl

theorem lastField?_append (label : String) {front : List Char}
    (hlabel : label.toList = front ++ ['=']) (rest : List Char) {value : List Char}
    (h : '=' ∉ value) :
    lastField? label (rest ++ label.toList ++ value) = some (rest, value) := by
  have hvalue : ∀ c ∈ value.reverse, (c != '=') = true := fun c hc =>
    bne_iff_ne.2 fun heq => h (heq ▸ List.mem_reverse.1 hc)
  -- seen from the back, the value comes first and then the equals sign of the label
  have hback : (rest ++ label.toList ++ value).reverse =
      value.reverse ++ '=' :: (rest ++ front).reverse := by
    simp [hlabel]
  have hdrop : (rest ++ label.toList ++ value).rdropWhile (· != '=') = rest ++ label.toList := by
    rw [List.rdropWhile, hback, List.dropWhile_append_of_pos hvalue, hlabel]
    simp
  have htake : (rest ++ label.toList ++ value).rtakeWhile (· != '=') = value := by
    rw [List.rtakeWhile, hback, List.takeWhile_append_of_pos hvalue]
    simp
  have hsuffix : label.toList.isSuffixOf? (rest ++ label.toList) = some rest :=
    List.isSuffixOf?_eq_some_iff_append_eq.2 rfl
  rw [lastField?, hdrop, htake, hsuffix]
  rfl

/-- The characters of a report, the number texts and the color between the fixed words. -/
theorem toList_text (r : Report) :
    r.text.toList =
      "result = ".toList ++ (r.result.fixedText.toList ++ '\n' ::
        ("horsepower = ".toList ++ ((intText r.horsepower).toList ++ '\n' ::
          ("torque = ".toList ++ (r.torque.fixedText.toList ++ '\n' ::
            ("Car: ".toList ++ (r.color.toList ++ ", maxSpeed=".toList ++
              (intText r.maxSpeed).toList ++ ", weight=".toList ++ (intText r.weight).toList ++
                "\n".toList))))))) := by
  simp [text, lines]

/-- **What a report shows is recovered from its text.** -/
theorem ofText?_text (r : Report) : Shown.ofText? r.text = some r.shown := by
  have hcar : ∀ cs : List Char, "Car: ".toList.isPrefixOf? ("Car: ".toList ++ cs) = some cs :=
    fun _ => List.isPrefixOf?_eq_some_iff_append_eq.2 rfl
  have hend : ∀ cs : List Char, "\n".toList.isSuffixOf? (cs ++ "\n".toList) = some cs :=
    fun _ => List.isSuffixOf?_eq_some_iff_append_eq.2 rfl
  have hweight := lastField?_append ", weight=" (show _ = ", weight".toList ++ ['='] from rfl)
    (r.color.toList ++ ", maxSpeed=".toList ++ (intText r.maxSpeed).toList)
    (equals_notMem_intText r.weight)
  have hspeed := lastField?_append ", maxSpeed=" (show _ = ", maxSpeed".toList ++ ['='] from rfl)
    r.color.toList (equals_notMem_intText r.maxSpeed)
  rw [Shown.ofText?, toList_text, firstLine?_append _ _ (newline_notMem_fixedText r.result)]
  simp only [Option.bind_eq_bind, Option.bind_some]
  rw [firstLine?_append _ _ (newline_notMem_intText r.horsepower)]
  simp only [Option.bind_some]
  rw [firstLine?_append _ _ (newline_notMem_fixedText r.torque)]
  simp only [Option.bind_some]
  rw [hcar, Option.bind_some, hend, Option.bind_some, hweight]
  simp only [Option.bind_some]
  rw [hspeed]
  simp [int?_intText, shown]

/-! ### Lines -/

/-- Whether a text consists of lines that start with some labels, each closed by a newline. -/
def HasLines (labels : List String) (text : String) : Prop :=
  ∃ lines : List (List Char), text.toList = lines.flatMap (· ++ ['\n']) ∧
    (∀ line ∈ lines, '\n' ∉ line) ∧
    List.Forall₂ (fun label line => label.toList <+: line) labels lines

/-- A text has as many newlines as lines. -/
theorem HasLines.count {labels : List String} {text : String} (h : HasLines labels text) :
    text.toList.count '\n' = labels.length := by
  obtain ⟨lines, htext, hlines, hlabels⟩ := h
  rw [htext, hlabels.length_eq]
  clear hlabels htext
  induction lines with
  | nil => rfl
  | cons line lines ih =>
      rw [List.forall_mem_cons] at hlines
      rw [List.flatMap_cons, List.count_append, List.count_append, ih hlines.2,
        List.count_eq_zero.2 hlines.1, List.length_cons]
      simp [Nat.add_comm]

/-- The labels of the lines of a report. -/
def labels : List String := ["result = ", "horsepower = ", "torque = ", "Car: "]

/-- A report has the newlines of its color and one more for each of its lines. -/
theorem count_newline_text (r : Report) :
    r.text.toList.count '\n' = r.color.toList.count '\n' + labels.length := by
  rw [toList_text]
  simp [List.count_eq_zero.2 (newline_notMem_fixedText _),
    List.count_eq_zero.2 (newline_notMem_intText _), labels]

theorem hasLines_text_iff (r : Report) : HasLines labels r.text ↔ '\n' ∉ r.color.toList := by
  constructor
  · intro h
    have hcount := h.count
    rw [r.count_newline_text] at hcount
    exact List.count_eq_zero.1 (by omega)
  · intro h
    refine ⟨["result = ".toList ++ r.result.fixedText.toList,
      "horsepower = ".toList ++ (intText r.horsepower).toList,
      "torque = ".toList ++ r.torque.fixedText.toList,
      "Car: ".toList ++ (r.color.toList ++ ", maxSpeed=".toList ++ (intText r.maxSpeed).toList ++
        ", weight=".toList ++ (intText r.weight).toList)], ?_, ?_, ?_⟩
    · rw [toList_text]
      simp
    · simp [h, newline_notMem_fixedText, newline_notMem_intText]
    · exact .cons (List.prefix_append _ _) (.cons (List.prefix_append _ _)
        (.cons (List.prefix_append _ _) (.cons (List.prefix_append _ _) .nil)))

/-- **The text of a report is unambiguous,** whatever its color.  A reader recovers what the report
shows, so two reports have one text exactly if they show the same; and the text has four lines
exactly if the color has no newline. -/
theorem text_unambiguous :
    (∀ r : Report, Shown.ofText? r.text = some r.shown) ∧
      (∀ a b : Report, a.text = b.text ↔
        a.horsepower = b.horsepower ∧ a.color = b.color ∧ a.maxSpeed = b.maxSpeed ∧
          a.weight = b.weight ∧ a.result.fixedText = b.result.fixedText ∧
          a.torque.fixedText = b.torque.fixedText) ∧
      ∀ r : Report, HasLines ["result = ", "horsepower = ", "torque = ", "Car: "] r.text ↔
        '\n' ∉ r.color.toList := by
  refine ⟨ofText?_text, fun a b => ⟨fun h => ?_, ?_⟩, hasLines_text_iff⟩
  · have hread := ofText?_text a
    rw [h, ofText?_text, Option.some.injEq, shown, shown, Shown.mk.injEq] at hread
    obtain ⟨hresult, hhorsepower, htorque, hcolor, hspeed, hweight⟩ := hread
    exact ⟨hhorsepower.symm, hcolor.symm, hspeed.symm, hweight.symm, hresult.symm, htorque.symm⟩
  · rintro ⟨hhorsepower, hcolor, hspeed, hweight, hresult, htorque⟩
    rw [text, text, lines, lines, hhorsepower, hcolor, hspeed, hweight, hresult, htorque]

end Report

end Paddock
