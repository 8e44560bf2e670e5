import Paddock.Record.Basic

/-!
# Quantity — physical quantities of the records

A quantity holds its amount in the base unit of its dimension, as a number of the 64-bit format.
A raw field becomes a quantity by one multiplication with the size of its unit, and is read in a
unit by one division or by one multiplication with the reciprocal of the unit.  Every step rounds.
-/

namespace Paddock

/-- A number of the 64-bit format given by a fraction. -/
def fraction (numerator : Int) (denominator : Nat) : Double :=
  Binary.ofRat ((numerator : Rat) / (denominator : Rat))

/-- The number one. -/
def Double.one : Double := Binary.ofInt 1

namespace UnitSize

/-- Watts in a mechanical horsepower. -/
def horsepower : Double := fraction 7456999 10000

/-- Watts in a kilowatt. -/
def kilowatt : Double := Binary.ofInt 1000

/-- Metres per second in a kilometre per hour. -/
def kilometerPerHour : Double := fraction 2777777777777778 10000000000000000

/-- Kilograms in a pound. -/
def pound : Double := fraction 4535924 10000000

end UnitSize

/-- A power in watts. -/
structure Power where
  base : Double
deriving DecidableEq

/-- A torque in newton metres. -/
structure Torque where
  base : Double
deriving DecidableEq

/-- A velocity in metres per second. -/
structure Velocity where
  base : Double
deriving DecidableEq

/-- A mass in kilograms. -/
structure Mass where
  base : Double
deriving DecidableEq

/-- A power per mass in watts per kilogram. -/
structure SpecificPower where
  base : Double
deriving DecidableEq

namespace Power

/-- The power of so many horsepower. -/
def ofHorsepower (n : Int32) : Power := ⟨(Binary.ofInt n.toInt).mul UnitSize.horsepower⟩

/-- The power in watts. -/
def watt (p : Power) : Double := p.base

/-- The power in kilowatts. -/
def kilowatt (p : Power) : Double := p.base.div UnitSize.kilowatt

/-- The power in horsepower. -/
def horsepower (p : Power) : Double := p.base.div UnitSize.horsepower

/-- The power per mass; a zero mass gives an infinity or NaN. -/
def per (p : Power) (m : Mass) : SpecificPower := ⟨p.base.div m.base⟩

end Power

namespace Torque

/-- The torque of so many newton metres. -/
def ofNewtonMeters (x : Single) : Torque := ⟨x.convert⟩

/-- The torque in newton metres. -/
def newtonMeter (t : Torque) : Double := t.base

end Torque

namespace Velocity

/-- The velocity of so many kilometres per hour. -/
def ofKilometersPerHour (n : Int32) : Velocity :=
  ⟨(Binary.ofInt n.toInt).mul UnitSize.kilometerPerHour⟩

/-- The velocity in metres per second. -/
def meterPerSecond (v : Velocity) : Double := v.base

/-- The velocity in kilometres per hour. -/
def kilometerPerHour (v : Velocity) : Double :=
  v.base.mul (Double.one.div UnitSize.kilometerPerHour)

end Velocity

namespace Mass

/-- The mass of so many kilograms. -/
def ofKilograms (n : Int32) : Mass := ⟨Binary.ofInt n.toInt⟩

/-- The mass in kilograms. -/
def kilogram (m : Mass) : Double := m.base

/-- The mass in pounds. -/
def pound (m : Mass) : Double := m.base.mul (Double.one.div UnitSize.pound)

end Mass

/-! ### Quantities of the records -/

/-- The power of an engine. -/
def Engine.power (e : Engine) : Power := .ofHorsepower e.horsepower

/-- The torque of an engine. -/
def Engine.torqueQuantity (e : Engine) : Torque := .ofNewtonMeters e.torque

/-- The top speed of a car. -/
def Car.topSpeed (c : Car) : Velocity := .ofKilometersPerHour c.maxSpeed

/-- The mass of a car. -/
def Car.mass (c : Car) : Mass := .ofKilograms c.weight

/-- The power of a car's engine over the car's mass. -/
def Car.powerToWeight (c : Car) : SpecificPower := c.engine.power.per c.mass

/-- What is measured of an engine. -/
structure EngineQuantities where
  rating : Single
  power : Power
  torque : Torque
deriving DecidableEq

/-- What is measured of a car. -/
structure CarQuantities where
  topSpeed : Velocity
  mass : Mass
  powerToWeight : SpecificPower
  engine : EngineQuantities
deriving DecidableEq

/-- What is measured of a record. -/
inductive Quantities where
  | engine (quantities : EngineQuantities)
  | car (quantities : CarQuantities)
  | showcase (engine : EngineQuantities) (car : CarQuantities)
deriving DecidableEq

/-- The quantities of an engine. -/
def Engine.quantities (e : Engine) : EngineQuantities := ⟨e.rating, e.power, e.torqueQuantity⟩

/-- The quantities of a car and of its engine. -/
def Car.quantities (c : Car) : CarQuantities :=
  ⟨c.topSpeed, c.mass, c.powerToWeight, c.engine.quantities⟩

/-- The quantities of a record; a report has none. -/
def Record.quantities? : Record → Option Quantities
  | .engine e => some (.engine e.quantities)
  | .car c => some (.car c.quantities)
  | .showcase s => some (.showcase s.engine.quantities s.car.quantities)
  | .report _ => none

end Paddock
