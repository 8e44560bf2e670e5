import Paddock.Proofs.Delivery.Outcome
import Paddock.Supercar

/-!
# Supercar — what a run leaves behind

A run has two inputs besides its output: the log setting and the arguments.  The arguments are not
looked at, and the setting becomes a filter, whatever its text.  The filter meets a run only at its
end, where it decides which events are written to the error output.  So exit code and output follow
from the delivery alone, and the delivery is known in closed form:

* a report that there is no room for exits with 1 and complains, and logs nothing whatever the
  filter lets through (`exitOf_of_overflows`);
* a report that is delivered exits with 0, and the one event of the delivery is shown or not
  (`exitOf_of_delivered`, and `run_pipe` for the reference showcase).
-/

namespace Paddock.Supercar

variable (filter : Filter) (s : Showcase) {sink : Sink}

/-- A filter decides about the error output only. -/
theorem exitOf_congr (filter filter' : Filter) (outcome : Outcome) :
    (exitOf filter outcome).code = (exitOf filter' outcome).code ∧
      (exitOf filter outcome).stdout = (exitOf filter' outcome).stdout := ⟨rfl, rfl⟩

/-- Without room for the whole report a run complains about the full output and logs nothing. -/
theorem exitOf_of_overflows (h : sink.overflows (bytesOf s.report.text) = true) :
    exitOf filter (s.deliverReport sink) =
      ⟨1, sink.share (bytesOf s.report.text), complaint (.write sink.fullFault)⟩ := by
  have hbytes : s.report.fragments.flatten = bytesOf s.report.text := s.report.cut.flatten_eq
  rw [Showcase.deliverReport, sink.deliver_of_overflows _ (hbytes ▸ h), hbytes]
  rfl

/-- A run that delivers its report shows the event of the delivery if the filter lets it through. -/
theorem exitOf_of_delivered (h : sink.overflows (bytesOf s.report.text) = false)
    (hflush : sink.onFlush = none) :
    exitOf filter (s.deliverReport sink) =
      ⟨0, sink.share (bytesOf s.report.text),
        if filter.enables s.report.delivered then [s.report.delivered.line] else []⟩ := by
  have hbytes : s.report.fragments.flatten = bytesOf s.report.text := s.report.cut.flatten_eq
  have hroom : ¬sink.overflows s.report.fragments.flatten = true := by simp [hbytes, h]
  rw [Showcase.deliverReport, sink.deliver_of_not_overflows _ hroom, hbytes, hflush]
  simp only [exitOf, Option.map_none, Option.elim_none, List.filter_cons, List.filter_nil,
    List.append_nil]
  split <;> rfl

/-- There is no report without any text. -/
theorem length_text_pos (r : Report) : 0 < (bytesOf r.text).length := by
  refine List.length_pos_iff.2 fun hnil => ?_
  have hempty : r.text = "" := bytesOf_injective (hnil.trans rfl)
  simp [Report.text, Report.lines] at hempty

/-- Nothing comes through a closed output. -/
theorem exitOf_closed (fault : LastingFault) :
    exitOf filter (s.deliverReport (.closed fault)) = ⟨1, [], complaint (.write fault.val)⟩ := by
  have hfull : (Sink.closed fault).overflows (bytesOf s.report.text) = true := by
    simp [Sink.overflows, Sink.closed, length_text_pos]
  rw [exitOf_of_overflows filter s hfull]
  rfl

/-- Everything comes through an open output. -/
theorem exitOf_unlimited :
    exitOf filter (s.deliverReport .unlimited) =
      ⟨0, bytesOf s.report.text,
        if filter.enables s.report.delivered then [s.report.delivered.line] else []⟩ :=
  exitOf_of_delivered filter s rfl rfl

/-! ### The reference showcase -/

/-- The line that a run logs, if it logs anything. -/
def logLine : String :=
  "DEBUG race_models::models::vehicle::core::showcase: wrote showcase report " ++
    "horsepower=450 color=red"

theorem line_reference : Showcase.reference.report.delivered.line = logLine := by decide +kernel

/-- A run with an open output. -/
theorem run_pipe (setting : Option String) (arguments : List String) :
    run setting arguments .pipe =
      ⟨0, bytesOf Showcase.reference.report.text,
        if (Filter.ofSetting setting).enables Showcase.reference.report.delivered then [logLine]
        else []⟩ := by
  have hexit := exitOf_unlimited (.ofSetting setting) .reference
  rw [line_reference] at hexit
  exact hexit

/-- The report of the reference showcase has no capital D, with which the log line starts. -/
theorem not_infix_reference : ¬bytesOf logLine <:+: bytesOf Showcase.reference.report.text := by
  have hline : (68 : UInt8) ∈ bytesOf logLine := by decide +kernel
  have htext : (68 : UInt8) ∉ bytesOf Showcase.reference.report.text := by decide +kernel
  exact fun h => htext (h.subset hline)

/-- **Neither the log setting nor the arguments reach the output.**  Two runs with the same outlet
have the same exit code and the same output, and the log line is never on the output.  When the
outlet fails the run exits with 1, writes nothing and complains in five lines without a log line;
otherwise it exits with 0, writes the report of the reference showcase, and its error output is the
log line if the filter lets it through and is empty if not. -/
theorem output_independent_of_log :
    (∀ (setting setting' : Option String) (arguments arguments' : List String) (outlet : Outlet),
      (run setting arguments outlet).code = (run setting' arguments' outlet).code ∧
        (run setting arguments outlet).stdout = (run setting' arguments' outlet).stdout) ∧
    ∀ (setting : Option String) (arguments : List String),
      (∀ outlet, ¬bytesOf logLine <:+: (run setting arguments outlet).stdout) ∧
      run setting arguments .full =
        ⟨1, [],
          [ "Error: writing report to stdout", "", "Caused by:", "    0: failed to write report",
            "    1: No space left on device (os error 28)" ]⟩ ∧
      run setting arguments .broken =
        ⟨1, [],
          [ "Error: writing report to stdout", "", "Caused by:", "    0: failed to write report",
            "    1: Broken pipe (os error 32)" ]⟩ ∧
      run setting arguments .pipe =
        ⟨0, bytesOf Showcase.reference.report.text,
          if (Filter.ofSetting setting).enables Showcase.reference.report.delivered then [logLine]
          else []⟩ := by
  refine ⟨fun _ _ _ _ _ => exitOf_congr _ _ _, fun setting arguments => ?_⟩
  have hfull : run setting arguments .full = _ := exitOf_closed (.ofSetting setting) .reference _
  have hbroken : run setting arguments .broken = _ :=
    exitOf_closed (.ofSetting setting) .reference _
  have hnil : ¬bytesOf logLine <:+: [] := by
    rw [List.infix_nil]
    decide +kernel
  refine ⟨fun outlet => ?_, hfull, hbroken, run_pipe setting arguments⟩
  cases outlet with
  | pipe =>
      rw [run_pipe]
      exact not_infix_reference
  | full =>
      rw [hfull]
      exact hnil
  | broken =>
      rw [hbroken]
      exact hnil

example : (run none [] .pipe).stderr = [] := by decide +kernel

example : (run (some "debug") [] .pipe).stderr = [logLine] := by decide +kernel

end Paddock.Supercar
