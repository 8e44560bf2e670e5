import Paddock.Proofs.Program.Recovery
import Paddock.Proofs.Record.Rating
import Paddock.Proofs.Record.Report

/-!
# Record — what equal showcases print

Showcases are compared numerically, and printed with the sign of every zero.  Equal showcases have
the same whole numbers and the same color, and torques that are the same bits or both of a zero
(`Stored.equal_iff`).  The sum in a report absorbs the sign of a zero torque, whatever the
horsepower (`Engine.rating_eq_of_equal`), so equal showcases have equal reports with the very same
result.  What is left to tell them apart is the text of a zero torque: the standalone one in the
report, both in the source.
-/

namespace Paddock

/-! ### Ratings -/

namespace Engine

variable {a b : Engine}

theorem equal_iff : a.equal b = true ↔
    a.horsepower = b.horsepower ∧ a.torque ≠ .nan ∧
      (a.torque = b.torque ∨ a.torque.IsZero ∧ b.torque.IsZero) := by
  rw [equal, Bool.and_eq_true, beq_iff_eq, Binary.equal_iff infinityRank_single_pos]

/-- Equal engines with one torque are the same. -/
theorem eq_of_equal (h : a.equal b = true) (htorque : a.torque = b.torque) : a = b :=
  congrArg₂ mk (equal_iff.1 h).1 htorque

/-- A zero torque leaves the horsepower as it is, whatever its sign. -/
theorem rating_of_isZero (h : a.torque.IsZero) : a.rating = Binary.ofInt a.horsepower.toInt := by
  obtain ⟨negative, rank, heq, -⟩ := Binary.exists_ofInt_eq a.horsepower
  rw [rating, heq]
  refine Binary.finite_add_of_isZero ?_ h
  -- a negative zero is the one number that a zero could change
  rintro rfl
  exact Binary.rank_pos_of_ofInt_eq (by decide) heq

/-- **Equal engines have the same rating.** -/
theorem rating_eq_of_equal (h : a.equal b = true) : a.rating = b.rating := by
  obtain ⟨hhorsepower, -, htorque | ⟨ha, hb⟩⟩ := equal_iff.1 h
  · rw [rating, rating, hhorsepower, htorque]
  · rw [rating_of_isZero ha, rating_of_isZero hb, hhorsepower]

end Engine

namespace Showcase

variable {s t : Showcase}

/-! ### Reports and sources of equal showcases -/

theorem equal_iff : s.equal t = true ↔
    s.engine.equal t.engine = true ∧ s.car.engine.equal t.car.engine = true ∧
      s.car.maxSpeed = t.car.maxSpeed ∧ s.car.weight = t.car.weight ∧
      s.car.color = t.car.color := by
  simp only [equal, Car.equal, Bool.and_eq_true, beq_iff_eq]
  tauto

/-- Equal showcases with the same torques are the same. -/
theorem eq_of_equal (h : s.equal t = true) (hengine : s.engine.torque = t.engine.torque)
    (hcar : s.car.engine.torque = t.car.engine.torque) : s = t := by
  obtain ⟨he, hc, hspeed, hweight, hcolor⟩ := equal_iff.1 h
  show mk s.engine ⟨s.car.maxSpeed, s.car.weight, s.car.engine, s.car.color⟩ = t
  rw [Engine.eq_of_equal he hengine, Engine.eq_of_equal hc hcar, hspeed, hweight, hcolor]

/-- **Equal showcases have equal reports,** with the same result. -/
theorem report_equal (h : s.equal t = true) :
    s.report.equal t.report = true ∧ s.report.result = t.report.result := by
  obtain ⟨he, -, hspeed, hweight, hcolor⟩ := equal_iff.1 h
  obtain ⟨hhorsepower, hnan, -⟩ := Engine.equal_iff.1 he
  have htorque : s.engine.torque.equal t.engine.torque = true := (Bool.and_eq_true_iff.1 he).2
  have hresult : s.engine.rating = t.engine.rating := Engine.rating_eq_of_equal he
  have hself : s.engine.rating.equal t.engine.rating = true :=
    (Binary.equal_iff infinityRank_single_pos).2 ⟨mt Engine.rating_eq_nan_iff.1 hnan, .inl hresult⟩
  refine ⟨?_, hresult⟩
  simp only [Report.equal, report, Bool.and_eq_true, beq_iff_eq]
  exact ⟨⟨⟨⟨⟨hself, hhorsepower⟩, htorque⟩, hcolor⟩, hspeed⟩, hweight⟩

/-- The standalone torque is all that tells the texts of their reports apart. -/
theorem report_text_eq_iff (h : s.equal t = true) :
    s.report.text = t.report.text ↔ s.engine.torque = t.engine.torque := by
  obtain ⟨he, -, hspeed, hweight, hcolor⟩ := equal_iff.1 h
  constructor
  · intro htext
    have hread := Report.ofText?_text s.report
    rw [htext, Report.ofText?_text, Option.some.injEq] at hread
    have hfixed : s.engine.torque.fixedText = t.engine.torque.fixedText :=
      (congrArg Report.Shown.torque hread).symm
    rw [Binary.fixedText, Binary.fixedText] at hfixed
    exact Binary.eq_of_textWith_eq infinityRank_single_pos (Bool.and_eq_true_iff.1 he).2 hfixed
  · intro htorque
    rw [report, report, Engine.eq_of_equal he htorque, hspeed, hweight, hcolor]

theorem source_injective : Function.Injective source := by
  intro s t h
  have hread := ofSource?_source s
  rw [h, ofSource?_source] at hread
  exact (Option.some.inj hread).symm

/-- The two torques are all that tells their sources apart. -/
theorem source_eq_iff (h : s.equal t = true) :
    s.source = t.source ↔
      s.engine.torque = t.engine.torque ∧ s.car.engine.torque = t.car.engine.torque := by
  rw [source_injective.eq_iff]
  constructor
  · rintro rfl
    exact ⟨rfl, rfl⟩
  · exact fun ⟨hengine, hcar⟩ => eq_of_equal h hengine hcar

/-! ### Stored values of equal showcases -/

namespace Stored

/-- Equal showcases have numbers for torques, and store the same values up to the sign of a zero
torque. -/
theorem equal_iff {a b : Stored} : a.showcase.equal b.showcase = true ↔
    (¬Binary.IsNaNPattern (f := .single) a.torque ∧
        Binary.SameUpToZeroSign (f := .single) a.torque b.torque) ∧
      (¬Binary.IsNaNPattern (f := .single) a.carTorque ∧
        Binary.SameUpToZeroSign (f := .single) a.carTorque b.carTorque) ∧
      { a with torque := b.torque, carTorque := b.carTorque } = b := by
  obtain ⟨n, u, speed, weight, m, v, color⟩ := a
  obtain ⟨n', u', speed', weight', m', v', color'⟩ := b
  have htorque := Binary.equal_ofBits_iff (f := .single) infinityRank_single_pos (u := u) (v := u')
  have hcar := Binary.equal_ofBits_iff (f := .single) infinityRank_single_pos (u := v) (v := v')
  simp only [Showcase.equal_iff, showcase, Engine.equal, Bool.and_eq_true, beq_iff_eq, htorque,
    hcar, mk.injEq]
  tauto

end Stored

/-- **Equal showcases print alike, up to the sign of a zero torque.**  Their reports are equal and
have the same bits for a result.  Their report texts are the same exactly if the standalone torques
have the same bits, and their source texts exactly if both torques do.  All other stored values are
the same, and torques with different bits are zeros. -/
theorem equal_prints_alike (a b : Stored) (h : a.showcase.equal b.showcase = true) :
    a.showcase.report.equal b.showcase.report = true ∧
      a.showcase.report.result.toBits = b.showcase.report.result.toBits ∧
      (a.showcase.report.text = b.showcase.report.text ↔ a.torque = b.torque) ∧
      (a.showcase.source = b.showcase.source ↔
        a.torque = b.torque ∧ a.carTorque = b.carTorque) ∧
      { a with torque := b.torque, carTorque := b.carTorque } = b ∧
      Binary.SameUpToZeroSign (f := .single) a.torque b.torque ∧
      Binary.SameUpToZeroSign (f := .single) a.carTorque b.carTorque := by
  obtain ⟨hreport, hresult⟩ := report_equal h
  obtain ⟨⟨hnan, htorque⟩, ⟨hcarNaN, hcarTorque⟩, hrest⟩ := Stored.equal_iff.1 h
  have hbits := Binary.ofBits_inj (f := .single) (v := b.torque)
    (mt Binary.ofBits_eq_nan_iff.1 hnan)
  have hcarBits := Binary.ofBits_inj (f := .single) (v := b.carTorque)
    (mt Binary.ofBits_eq_nan_iff.1 hcarNaN)
  refine ⟨hreport, congrArg _ hresult, ?_, ?_, hrest, htorque, hcarTorque⟩
  · exact (report_text_eq_iff h).trans hbits
  · exact (source_eq_iff h).trans (and_congr hbits hcarBits)

/-- Two showcases without horsepower that differ in the sign of a zero torque: one result, but two
report texts and two sources. -/
theorem equal_prints_alike_zeros :
    let a : Stored := ⟨0, 0x00000000, 320, 1200, 450, 0x80000000, "red"⟩
    let b : Stored := ⟨0, 0x80000000, 320, 1200, 450, 0x80000000, "red"⟩
    a.showcase.equal b.showcase = true ∧
      a.showcase.report.equal b.showcase.report = true ∧
      a.showcase.report.result.toBits = b.showcase.report.result.toBits ∧
      a.showcase.report.text ≠ b.showcase.report.text ∧
      a.showcase.source ≠ b.showcase.source := by
  intro a b
  have h : a.showcase.equal b.showcase = true := by decide +kernel
  obtain ⟨hreport, hresult, htext, hsource, -⟩ := equal_prints_alike a b h
  have htorque : a.torque ≠ b.torque := by decide
  exact ⟨h, hreport, hresult, mt htext.1 htorque, fun heq => htorque (hsource.1 heq).1⟩

end Showcase

end Paddock
