import Paddock.Record.Basic
import Paddock.Text.Pieces

/-!
# Session — paths into records

A path is a list of keys that leads from a record to one of its parts: the record itself, a record
inside it, or a scalar.  `part?` reads the part at a path and `update?` replaces it.  A replacement
is of the same kind as the part it replaces, so a record keeps its shape; only at the empty path may
another kind of record take its place.
-/

namespace Paddock

/-- The name of a field. -/
inductive Key where
  | engine
  | car
  | horsepower
  | torque
  | maxSpeed
  | weight
  | color
  | result
deriving DecidableEq

/-- The key a word spells. -/
def Key.ofText? (word : String) : Option Key :=
  match word with
  | "engine" => some engine
  | "car" => some car
  | "horsepower" => some horsepower
  | "torque" => some torque
  | "max_speed" => some maxSpeed
  | "weight" => some weight
  | "color" => some color
  | "result" => some result
  | _ => none

/-- A way into a record. -/
abbrev Path := List Key

/-- The path a text spells: keys with dots between them, or nothing for the record itself. -/
def Path.ofText? (text : String) : Option Path :=
  if text = "" then some []
  else (pieces '.' text.toList).mapM fun word => Key.ofText? (String.ofList word)

/-- The kinds of scalars. -/
inductive ScalarKind where
  | int
  | float
  | text
deriving DecidableEq

/-- The kind of the fields of a name, unless they are records. -/
def Key.scalarKind? : Key → Option ScalarKind
  | engine | car => none
  | horsepower | maxSpeed | weight => some .int
  | torque | result => some .float
  | color => some .text

/-- The kind of scalar a path leads to. -/
def Path.scalarKind? (path : Path) : Option ScalarKind := path.getLast?.bind Key.scalarKind?

/-- A part of a record. -/
inductive Part where
  | record (record : Record)
  | scalar (scalar : Scalar)
deriving DecidableEq

namespace Part

/-- A whole number as a part. -/
def int (n : Int32) : Part := scalar (.int n)

/-- A floating-point number as a part. -/
def float (x : Single) : Part := scalar (.float x)

/-- A text as a part. -/
def text (s : String) : Part := scalar (.text s)

/-- The record a part is, if it is one. -/
def record? : Part → Option Record
  | record r => some r
  | scalar _ => none

end Part

namespace Record

/-! ### Fields -/

/-- The field of a key. -/
def field? : Record → Key → Option Part
  | engine e, .horsepower => some (.int e.horsepower)
  | engine e, .torque => some (.float e.torque)
  | car c, .maxSpeed => some (.int c.maxSpeed)
  | car c, .weight => some (.int c.weight)
  | car c, .engine => some (.record (engine c.engine))
  | car c, .color => some (.text c.color)
  | showcase s, .engine => some (.record (engine s.engine))
  | showcase s, .car => some (.record (car s.car))
  | report r, .result => some (.float r.result)
  | report r, .horsepower => some (.int r.horsepower)
  | report r, .torque => some (.float r.torque)
  | report r, .color => some (.text r.color)
  | report r, .maxSpeed => some (.int r.maxSpeed)
  | report r, .weight => some (.int r.weight)
  | _, _ => none

/-- The record with another value in the field of a key, if the value is of the field's kind. -/
def withField? : Record → Key → Part → Option Record
  | engine e, .horsepower, .scalar (.int n) => some (engine { e with horsepower := n })
  | engine e, .torque, .scalar (.float x) => some (engine { e with torque := x })
  | car c, .maxSpeed, .scalar (.int n) => some (car { c with maxSpeed := n })
  | car c, .weight, .scalar (.int n) => some (car { c with weight := n })
  | car c, .engine, .record (engine e) => some (car { c with engine := e })
  | car c, .color, .scalar (.text t) => some (car { c with color := t })
  | showcase s, .engine, .record (engine e) => some (showcase { s with engine := e })
  | showcase s, .car, .record (car c) => some (showcase { s with car := c })
  | report r, .result, .scalar (.float x) => some (report { r with result := x })
  | report r, .horsepower, .scalar (.int n) => some (report { r with horsepower := n })
  | report r, .torque, .scalar (.float x) => some (report { r with torque := x })
  | report r, .color, .scalar (.text t) => some (report { r with color := t })
  | report r, .maxSpeed, .scalar (.int n) => some (report { r with maxSpeed := n })
  | report r, .weight, .scalar (.int n) => some (report { r with weight := n })
  | _, _, _ => none

/-- The path to the color of a record, if it has one. -/
def colorPath? : Record → Option Path
  | car _ | report _ => some [.color]
  | showcase _ => some [.car, .color]
  | engine _ => none

end Record

/-! ### Parts -/

/-- The part of a part at a path. -/
def Part.part? : Part → Path → Option Part
  | part, [] => some part
  | .scalar _, _ :: _ => none
  | .record r, key :: path => (r.field? key).bind (·.part? path)

/-- A part with the part at a path changed. -/
def Part.update? (change : Part → Option Part) : Part → Path → Option Part
  | part, [] => change part
  | .scalar _, _ :: _ => none
  | .record r, key :: path => do
    let field ← r.field? key
    let field ← field.update? change path
    let r ← r.withField? key field
    return .record r

/-- The part of a record at a path. -/
def Record.part? (r : Record) (path : Path) : Option Part := (Part.record r).part? path

/-- A record with the part at a path changed. -/
def Record.update? (r : Record) (path : Path) (change : Part → Option Part) : Option Record :=
  ((Part.record r).update? change path).bind Part.record?

end Paddock
