import Paddock.Binary.Arith

/-!
# Record — engines, cars, showcases and reports

The records are plain values.  A car owns its engine and a showcase owns both its parts, so a copy
shares nothing with what it was copied from.

Two notions of sameness live side by side.  `=` compares every field exactly, with all NaNs one
value.  `equal` compares numbers numerically: the two zeros are equal, and a record with a NaN
anywhere in it differs from everything, itself included.
-/

namespace Paddock

/-- An engine: peak power in mechanical horsepower, peak torque in newton metres. -/
structure Engine where
  horsepower : Int32
  torque : Single
deriving DecidableEq

/-- A car: top speed in kilometres per hour, weight in kilograms, its own engine, its paint. -/
structure Car where
  maxSpeed : Int32
  weight : Int32
  engine : Engine
  color : String
deriving DecidableEq

/-- A standalone engine shown next to a car. -/
structure Showcase where
  engine : Engine
  car : Car
deriving DecidableEq

/-- The values a report shows. -/
structure Report where
  result : Single
  horsepower : Int32
  torque : Single
  color : String
  maxSpeed : Int32
  weight : Int32
deriving DecidableEq

/-- A record of any of the four kinds. -/
inductive Record where
  | engine (engine : Engine)
  | car (car : Car)
  | showcase (showcase : Showcase)
  | report (report : Report)
deriving DecidableEq

/-- The value of a field that is not itself a record. -/
inductive Scalar where
  | int (n : Int32)
  | float (x : Single)
  | text (s : String)
deriving DecidableEq

/-! ### Numeric equality -/

/-- Field by field, the torques numerically. -/
def Engine.equal (x y : Engine) : Bool :=
  x.horsepower == y.horsepower && x.torque.equal y.torque

/-- Field by field, the engines by `Engine.equal`. -/
def Car.equal (x y : Car) : Bool :=
  x.maxSpeed == y.maxSpeed && x.weight == y.weight && x.engine.equal y.engine &&
    x.color == y.color

/-- Part by part. -/
def Showcase.equal (x y : Showcase) : Bool := x.engine.equal y.engine && x.car.equal y.car

/-- Field by field, result and torque numerically. -/
def Report.equal (x y : Report) : Bool :=
  x.result.equal y.result && x.horsepower == y.horsepower && x.torque.equal y.torque &&
    x.color == y.color && x.maxSpeed == y.maxSpeed && x.weight == y.weight

/-- Records of one kind are equal or not; records of different kinds are not compared. -/
def Record.equal? : Record → Record → Option Bool
  | .engine x, .engine y => some (x.equal y)
  | .car x, .car y => some (x.equal y)
  | .showcase x, .showcase y => some (x.equal y)
  | .report x, .report y => some (x.equal y)
  | _, _ => none

/-- Records of one kind differ if they are not equal. -/
def Record.differ? (x y : Record) : Option Bool := (x.equal? y).map (!·)

/-! ### Derived values -/

/-- Horsepower, rounded to the 32-bit format, plus torque. -/
def Engine.rating (e : Engine) : Single := (Binary.ofInt e.horsepower.toInt).add e.torque

/-- The values of a showcase that its report shows: the standalone engine and the car's body. -/
def Showcase.report (s : Showcase) : Report where
  result := s.engine.rating
  horsepower := s.engine.horsepower
  torque := s.engine.torque
  color := s.car.color
  maxSpeed := s.car.maxSpeed
  weight := s.car.weight

/-- The engine of the reference showcase: 450 hp and 550.5 N·m. -/
def Engine.reference : Engine := ⟨450, Binary.ofRat (1101 / 2)⟩

/-- The reference showcase: a red car of 320 km/h and 1200 kg, and an engine like its own. -/
def Showcase.reference : Showcase := ⟨Engine.reference, ⟨320, 1200, Engine.reference, "red"⟩⟩

end Paddock
