import Paddock.Delivery.Report
import Paddock.Log.Filter

/-!
# Supercar — the program that reports the reference showcase

A run of the program delivers the report of the reference showcase to its output.  It takes no
arguments and has one setting, the log filter.  What the log lets through and what went wrong goes
to the error output; the exit code says whether the delivery succeeded.
-/

namespace Paddock.Supercar

/-- What the output of the program is connected to. -/
inductive Outlet where
  | pipe
  | full
  | broken
deriving DecidableEq

/-- The sink behind an outlet. -/
def Outlet.sink : Outlet → Sink
  | pipe => .unlimited
  | full => .closed ⟨⟨.storageFull, "No space left on device (os error 28)"⟩, by decide⟩
  | broken => .closed ⟨⟨.brokenPipe, "Broken pipe (os error 32)"⟩, by decide⟩

/-- What a run leaves behind. -/
structure Exit where
  code : UInt8
  stdout : List UInt8
  stderr : List String
deriving DecidableEq

/-- The lines about an error: what was being done, the error, its cause. -/
def complaint : ReportError → List String
  | error@(.write cause) =>
    [ "Error: writing report to stdout",
      "",
      "Caused by:",
      "    0: " ++ error.message,
      "    1: " ++ cause.message ]

/-- The exit of a delivery whose events pass through a filter. -/
def exitOf (filter : Filter) (outcome : Outcome) : Exit where
  code := match outcome.error? with
    | none => 0
    | some _ => 1
  stdout := outcome.written
  stderr := (outcome.events.filter filter.enables).map Event.line ++
    match outcome.error? with
      | none => []
      | some error => complaint error

/-- A run of the program; its arguments do not matter. -/
def run (setting : Option String) (_arguments : List String) (outlet : Outlet) : Exit :=
  exitOf (Filter.ofSetting setting) (Showcase.reference.deliverReport outlet.sink)

end Paddock.Supercar
