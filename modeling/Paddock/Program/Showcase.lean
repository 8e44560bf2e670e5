import Paddock.Program.Syntax

/-!
# Program — the program of a showcase

A showcase becomes a C program that holds its two parts as global records and prints what the
report of the showcase shows.
-/

namespace Paddock

namespace Program

/-- The record type of engines. -/
def engineType : RecordType := ⟨"Engine", [(.int, "horsepower"), (.float, "torque")]⟩

/-- The record type of cars. -/
def carType : RecordType :=
  ⟨"Car", [(.int, "maxSpeed"), (.int, "weight"), (.record "Engine", "engine"), (.text, "color")]⟩

/-- The members of an engine. -/
def engineMembers (e : Engine) : List (String × Scalar) :=
  [("horsepower", .int e.horsepower), ("torque", .float e.torque)]

/-- The standalone engine. -/
def engineGlobal (e : Engine) : Global where
  type := "Engine"
  name := "myEngine"
  members := (engineMembers e).map fun (name, value) => (name, .scalar value)

/-- The car on display. -/
def carGlobal (c : Car) : Global where
  type := "Car"
  name := "MySuperCar"
  members :=
    [ ("maxSpeed", .scalar (.int c.maxSpeed)), ("weight", .scalar (.int c.weight)),
      ("engine", .record (engineMembers c.engine)), ("color", .scalar (.text c.color)) ]

/-- The main function: it prints the four lines of the report. -/
def reportMain : List (List Statement) :=
  [ [ .declareFloat "result"
        (.sum (.member "myEngine" "horsepower") (.member "myEngine" "torque")),
      .print [.verbatim "result = ", .fixed, .verbatim "\n"] [.ident "result"] ],
    [ .print [.verbatim "horsepower = ", .int, .verbatim "\n"] [.member "myEngine" "horsepower"],
      .print [.verbatim "torque = ", .fixed, .verbatim "\n"] [.member "myEngine" "torque"] ],
    [ .print
        [ .verbatim "Car: ", .text, .verbatim ", maxSpeed=", .int, .verbatim ", weight=", .int,
          .verbatim "\n" ]
        [ .member "MySuperCar" "color", .member "MySuperCar" "maxSpeed",
          .member "MySuperCar" "weight" ] ],
    [ .finish 0 ] ]

end Program

/-- The program of a showcase. -/
def Showcase.program (s : Showcase) : Program where
  types := [Program.engineType, Program.carType]
  globals := [Program.engineGlobal s.engine, Program.carGlobal s.car]
  main := Program.reportMain

/-- The text of the program of a showcase. -/
def Showcase.source (s : Showcase) : String := s.program.text

end Paddock
