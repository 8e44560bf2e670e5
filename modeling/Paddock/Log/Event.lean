import Paddock.Record.Basic
import Paddock.Text.Number

/-!
# Log — events

An event carries its level, the target it was raised under, a message and named values.  It is
written as one line.
-/

namespace Paddock

/-- How much an event matters, from what is always wanted to what is rarely wanted. -/
inductive Level where
  | error
  | warn
  | info
  | debug
  | trace
deriving DecidableEq

namespace Level

/-- Levels in order, `error` first. -/
def rank : Level → Nat
  | error => 1
  | warn => 2
  | info => 3
  | debug => 4
  | trace => 5

/-- The name a line shows. -/
def name : Level → String
  | error => "ERROR"
  | warn => "WARN"
  | info => "INFO"
  | debug => "DEBUG"
  | trace => "TRACE"

end Level

/-- Something that happened, as the log sees it. -/
structure Event where
  level : Level
  target : String
  message : String
  fields : List (String × Scalar)
deriving DecidableEq

namespace Event

/-- The names under which an event carries something, its message included. -/
def names (e : Event) : List String := "message" :: e.fields.map Prod.fst

/-- A value as a line shows it, unquoted. -/
def valueText : Scalar → String
  | .int n => intText n
  | .float x => x.exactText
  | .text s => s

/-- The line of an event. -/
def line (e : Event) : String :=
  e.level.name ++ " " ++ e.target ++ ": " ++ e.message ++
    String.join (e.fields.map fun (name, value) => " " ++ name ++ "=" ++ valueText value)

end Event

end Paddock
