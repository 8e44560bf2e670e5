import Paddock.Record.Basic
import Paddock.Text.Number
import Paddock.Text.Quoted

/-!
# Record — reports and outlines

The text of a report is four lines, each closed by a newline.  Numbers of the floating-point kind
have two places, and the color stands as it is.

The outline of a record is a tree: at the leaves the texts of its scalar fields, at the inner nodes
the name of a record and its labelled fields.  An outline is written out in two ways.  `compact`
puts it on one line.  `pretty` gives every field a line of its own, four spaces further in than the
record around it, with a comma after each field.
-/

namespace Paddock

/-! ### The text of a report -/

/-- The lines of a report, each with its newline. -/
def Report.lines (r : Report) : List String :=
  [ "result = " ++ r.result.fixedText ++ "\n",
    "horsepower = " ++ intText r.horsepower ++ "\n",
    "torque = " ++ r.torque.fixedText ++ "\n",
    "Car: " ++ r.color ++ ", maxSpeed=" ++ intText r.maxSpeed ++ ", weight=" ++
      intText r.weight ++ "\n" ]

/-- The whole text of a report. -/
def Report.text (r : Report) : String := String.join r.lines

/-! ### Outlines -/

mutual

/-- A tree of labelled texts. -/
inductive Outline where
  | leaf (text : String)
  | node (name : String) (fields : Fields)

/-- The fields of a node, in order. -/
inductive Fields where
  | nil
  | cons (label : String) (value : Outline) (rest : Fields)

end

/-- The fields of a list of labels and values. -/
def Fields.ofList : List (String × Outline) → Fields
  | [] => .nil
  | (label, value) :: rest => .cons label value (Fields.ofList rest)

/-! ### On one line -/

mutual

/-- The outline on one line. -/
def Outline.compact : Outline → String
  | .leaf text => text
  | .node name fields => name ++ " \x7b " ++ fields.compact ++ " \x7d"

/-- The fields on one line, with commas between them. -/
def Fields.compact : Fields → String
  | .nil => ""
  | .cons label value .nil => label ++ ": " ++ value.compact
  | .cons label value (.cons label' value' rest) =>
    label ++ ": " ++ value.compact ++ ", " ++ Fields.compact (.cons label' value' rest)

end

/-! ### A line for every field -/

/-- The blanks in front of a line. -/
def indent (depth : Nat) : String := String.ofList (List.replicate (4 * depth) ' ')

mutual

/-- The outline over several lines; its first line goes on where the text before it ended. -/
def Outline.prettyAt (depth : Nat) : Outline → String
  | .leaf text => text
  | .node name fields =>
    name ++ " \x7b\n" ++ fields.prettyAt (depth + 1) ++ indent depth ++ "\x7d"

/-- The fields, each on lines of its own and with a comma at its end. -/
def Fields.prettyAt (depth : Nat) : Fields → String
  | .nil => ""
  | .cons label value rest =>
    indent depth ++ label ++ ": " ++ value.prettyAt depth ++ ",\n" ++ rest.prettyAt depth

end

/-- The outline over several lines, starting at the margin. -/
def Outline.pretty (o : Outline) : String := o.prettyAt 0

/-! ### Outlines of the records -/

/-- The leaf of a whole number. -/
def Outline.int (n : Int32) : Outline := .leaf (intText n)

/-- The leaf of a floating-point number. -/
def Outline.float (x : Single) : Outline := .leaf x.exactText

/-- The leaf of a text. -/
def Outline.text (s : String) : Outline := .leaf (quotedText s)

/-- The outline of an engine. -/
def Engine.outline (e : Engine) : Outline :=
  .node "Engine" (.ofList [("horsepower", .int e.horsepower), ("torque", .float e.torque)])

/-- The outline of a car. -/
def Car.outline (c : Car) : Outline :=
  .node "Car" (.ofList
    [ ("max_speed", .int c.maxSpeed), ("weight", .int c.weight), ("engine", c.engine.outline),
      ("color", .text c.color) ])

/-- The outline of a showcase. -/
def Showcase.outline (s : Showcase) : Outline :=
  .node "Showcase" (.ofList [("engine", s.engine.outline), ("car", s.car.outline)])

/-- The outline of a report. -/
def Report.outline (r : Report) : Outline :=
  .node "Report" (.ofList
    [ ("result", .float r.result), ("horsepower", .int r.horsepower), ("torque", .float r.torque),
      ("color", .text r.color), ("max_speed", .int r.maxSpeed), ("weight", .int r.weight) ])

/-- The outline of a record of any kind. -/
def Record.outline : Record → Outline
  | .engine e => e.outline
  | .car c => c.outline
  | .showcase s => s.outline
  | .report r => r.outline

end Paddock
