import Paddock.Proofs.Binary.Range
import Paddock.Proofs.Program.Recovery
import Paddock.Proofs.Text.Bytes

/-!
# Program — the program of a showcase prints its report

Two renderings of one showcase meet here: the report, written out directly, and its program, whose
text is read as plain C and run.  They agree directive by directive.  `%d` prints the text of a
whole number, `%.2f` the text with two places of any finite number (`printFixed?_convert`), and `%s`
a text up to its first NUL.  The sum in the main function is the rating of the engine, which is
finite when the torque is.

So the program prints the report with its color cut before the first NUL (`run?_reportMain`).
-/

namespace Paddock

namespace Program

/-! ### Two places -/

/-- Division with remainder rounds the exact quotient. -/
theorem nearestEven_div (n : Nat) {d : Nat} (hd : 0 < d) :
    nearestEven ((n : Rat) / (d : Rat)) = divideEven n d := by
  have hd' : (0 : Rat) < (d : Rat) := by exact_mod_cast hd
  have hfloor : ((n : Rat) / (d : Rat)).floor.toNat = n / d := by
    have := Rat.floor_intCast_div_natCast (n : Int) d
    rw [Int.cast_natCast] at this
    rw [show ((n : Rat) / (d : Rat)).floor = _ from this, ← Int.natCast_ediv, Int.toNat_natCast]
  have hexcess : (n : Rat) / (d : Rat) - ((n / d : Nat) : Rat) =
      ((n % d : Nat) : Rat) / (d : Rat) := by
    have hsplit : (n : Rat) = (d : Rat) * ((n / d : Nat) : Rat) + ((n % d : Nat) : Rat) := by
      exact_mod_cast (Nat.div_add_mod n d).symm
    field_simp
    linarith
  have hlt : ((n % d : Nat) : Rat) / (d : Rat) < 1 / 2 ↔ 2 * (n % d) < d := by
    rw [div_lt_iff₀ hd', ← @Nat.cast_lt Rat]
    push_cast
    constructor <;> intro h <;> linarith
  have hgt : 1 / 2 < ((n % d : Nat) : Rat) / (d : Rat) ↔ d < 2 * (n % d) := by
    rw [lt_div_iff₀ hd', ← @Nat.cast_lt Rat]
    push_cast
    constructor <;> intro h <;> linarith
  simp only [nearestEven, divideEven, hfloor, hexcess, hlt, hgt]

/-- What `%.2f` prints of a finite number is its text with two places. -/
theorem printFixed?_convert {x : Single} (h : x.isFinite = true) :
    printFixed? x.convert = some x.fixedText.toList := by
  cases x with
  | nan => cases h
  | inf negative => cases h
  | finite negative rank =>
      -- widening keeps the magnitude, so both round the same number of hundredths
      obtain ⟨wide, hconvert, hmagnitude⟩ := Binary.convert_finite negative rank
      have hhundredths : divideEven (100 * Format.double.units wide) Format.double.unitsPerOne =
          Binary.hundredths .single rank := by
        rw [Binary.hundredths, ← hmagnitude, Binary.magnitude,
          ← nearestEven_div _ Format.double.unitsPerOne_pos]
        congr 1
        push_cast
        ring
      rw [hconvert, printFixed?, hhundredths, Binary.fixedText, Binary.textWith, fixedPoint_two,
        String.toList_append, toList_signText, String.toList_ofList, List.append_assoc]

theorem ofList_printInt (n : Int32) : String.ofList (printInt n) = intText n := by
  rw [printInt, ← toList_repr_int, String.ofList_toList, intText]

/-! ### Directives -/

theorem print?_int (n : Int32) : Directive.int.print? (.int n) = some (bytesOf (intText n)) := by
  rw [Directive.print?, ofList_printInt]

theorem print?_fixed {x : Single} (h : x.isFinite = true) :
    Directive.fixed.print? (.float x) = some (bytesOf x.fixedText) := by
  rw [Directive.print?, printFixed?_convert h, Option.map_some, String.ofList_toList]

theorem print?_text (s : String) :
    Directive.text.print? (.ofScalar (.text s)) = some (bytesOf (beforeNul s)) := by
  rw [Value.ofScalar, Directive.print?, if_pos (by simp), takeWhile_bytesOf]

/-- A line with one number in it. -/
theorem printFormat?_single {d : Directive} {v : Value} {s : String} (front back : String)
    (h : d.print? v = some (bytesOf s)) :
    printFormat? [.verbatim front, d, .verbatim back] [v] =
      some (bytesOf (front ++ s ++ back)) := by
  cases d with
  | verbatim _ => cases h
  | int => simp [printFormat?, h]
  | fixed => simp [printFormat?, h]
  | text => simp [printFormat?, h]

end Program

/-- Reports that differ in their colors only have different texts. -/
theorem Report.text_color_inj (r : Report) {c d : String} :
    ({ r with color := c } : Report).text = ({ r with color := d } : Report).text ↔ c = d := by
  simp [text, lines, ← String.toList_inj]

namespace Showcase

variable (s : Showcase)

/-- The records of the program fit their types. -/
theorem fits_globals :
    s.program.globals.all (Program.Global.fits s.program.types) = true := rfl

/-- The main function prints the lines of the report, the color up to its first NUL. -/
theorem run?_reportMain (main : List (List Program.Statement))
    (h : s.engine.torque.isFinite = true) :
    Program.run? { s.program with main } ⟨[], []⟩ Program.reportMain.flatten =
      some (bytesOf ({ s.report with color := beforeNul s.car.color } : Report).text, 0) := by
  have hrating : s.engine.rating.isFinite = true := Engine.isFinite_rating h
  have hresult : (Program.Expr.sum (.member "myEngine" "horsepower")
      (.member "myEngine" "torque")).eval? { s.program with main } [] =
        some (.float s.engine.rating) := rfl
  have hline₁ := Program.printFormat?_single "result = " "\n" (Program.print?_fixed hrating)
  have hline₂ := Program.printFormat?_single "horsepower = " "\n"
    (Program.print?_int s.engine.horsepower)
  have hline₃ := Program.printFormat?_single "torque = " "\n" (Program.print?_fixed h)
  have hline₄ : Program.printFormat?
      [ .verbatim "Car: ", .text, .verbatim ", maxSpeed=", .int, .verbatim ", weight=", .int,
        .verbatim "\n" ]
      [.ofScalar (.text s.car.color), .int s.car.maxSpeed, .int s.car.weight] =
        some (bytesOf ("Car: " ++ beforeNul s.car.color ++ ", maxSpeed=" ++
          intText s.car.maxSpeed ++ ", weight=" ++ intText s.car.weight ++ "\n")) := by
    simp [Program.printFormat?, Program.print?_text, Program.print?_int]
  refine (Program.run?_declareFloat rfl hresult rfl).trans ?_
  refine (Program.run?_print rfl hline₁).trans ?_
  refine (Program.run?_print rfl hline₂).trans ?_
  refine (Program.run?_print rfl hline₃).trans ?_
  refine (Program.run?_print rfl hline₄).trans ?_
  simp [Program.run?, Program.Statement.step?, Report.text, Report.lines, report]

/-- **The program of a showcase prints its report.**  When both torques are finite the source text
is a program of plain C.  It returns zero and prints the report with the color cut just before its
first NUL, so it prints the report itself exactly if the color has no NUL. -/
theorem executeSource?_prints_report (s : Showcase) (hengine : s.engine.torque.isFinite = true)
    (hcar : s.car.engine.torque.isFinite = true) :
    ∃ printed, Program.executeSource? s.source = some (printed, 0) ∧
      printed = bytesOf ({ s.report with color := beforeNul s.car.color } : Report).text ∧
      (printed = bytesOf s.report.text ↔ '\x00' ∉ s.car.color.toList) := by
  refine ⟨_, ?_, rfl, ?_⟩
  · have hlegible : ∀ x : Single, x.isFinite = true → Program.Legible .none (.float x) :=
      fun _ hx => .inl hx
    have hread := program_ofSource? (hlegible _ hengine) (hlegible _ hcar)
    have hrun := s.run?_reportMain [Program.reportMain.flatten] hengine
    rw [Program.executeSource?, hread, Option.bind_some, Program.execute?]
    simpa [guard, s.fits_globals] using hrun
  · rw [bytesOf_injective.eq_iff, ← beforeNul_eq_self_iff]
    exact s.report.text_color_inj

/-- A showcase with negative numbers and a NUL in its color. -/
theorem executeSource?_prints_report_nul :
    let s : Showcase :=
      ⟨⟨-2147483648, .ofBits 0xc2c80001⟩, ⟨-1, 7, ⟨0, .ofBits 0x00000001⟩, "re\x00d\"\\\n"⟩⟩
    s.engine.torque.isFinite = true ∧ s.car.engine.torque.isFinite = true ∧
      ∃ printed, Program.executeSource? s.source = some (printed, 0) ∧
        printed = bytesOf ({ s.report with color := beforeNul s.car.color } : Report).text ∧
        (printed = bytesOf s.report.text ↔ '\x00' ∉ s.car.color.toList) := by
  have hengine : Binary.isFinite (.ofBits 0xc2c80001 : Single) = true := by decide +kernel
  have hcar : Binary.isFinite (.ofBits 0x00000001 : Single) = true := by decide +kernel
  exact ⟨hengine, hcar, executeSource?_prints_report _ hengine hcar⟩

end Showcase

end Paddock
