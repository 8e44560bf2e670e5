import Paddock.Delivery.Sink
import Paddock.Log.Event
import Paddock.Record.Outline

/-!
# Delivery — delivering a report

Delivering the report of a showcase sends the lines of the report and flushes.  A delivery that
fails carries the fault that stopped it and logs nothing; one that succeeds logs one event.
-/

namespace Paddock

/-- What goes wrong when a report is delivered. -/
inductive ReportError where
  | write (cause : Fault)
deriving DecidableEq

/-- What is said of the error itself, apart from its cause. -/
def ReportError.message : ReportError → String
  | write _ => "failed to write report"

/-- What is left of a delivery: the bytes taken, the number of flushes, the error that ended it,
the events logged. -/
structure Outcome where
  written : List UInt8
  flushes : Nat
  error? : Option ReportError
  events : List Event
deriving DecidableEq

/-- The bytes of a text. -/
def bytesOf (s : String) : List UInt8 := s.toByteArray.data.toList

/-- The fragments a report is sent in. -/
def Report.fragments (r : Report) : List (List UInt8) := r.lines.map bytesOf

/-- The event of a delivered report. -/
def Report.delivered (r : Report) : Event where
  level := .debug
  target := "race_models::models::vehicle::core::showcase"
  message := "wrote showcase report"
  fields := [("horsepower", .int r.horsepower), ("color", .text r.color)]

/-- The outcome of sending fragments to a sink, logging `event` on success. -/
def Sink.deliver (sink : Sink) (fragments : List (List UInt8)) (event : Event) : Outcome :=
  let (fault?, exchanges) := sink.run (Delivery.ofFragments fragments) []
  { written := exchanges.flatMap Exchange.taken
    flushes := exchanges.countP (·.request = .flush)
    error? := fault?.map .write
    events := match fault? with
      | none => [event]
      | some _ => [] }

/-- The outcome of sending the report of a showcase to a sink. -/
def Showcase.deliverReport (s : Showcase) (sink : Sink) : Outcome :=
  sink.deliver s.report.fragments s.report.delivered

end Paddock
