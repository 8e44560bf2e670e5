import Paddock.Delivery.Report
import Paddock.Program.Showcase
import Paddock.Quantity
import Paddock.Record.Outline
import Paddock.Session.Path
import Paddock.Session.Slots

/-!
# Session — steps

A session works on slots step by step.  A step stores a record, changes a part of one, or shows
something of one.  It has a reply, or it fails: the slot is missing, the record in it is of the
wrong kind, or the path leads nowhere.  A step that fails leaves the slots as they were, and the
session goes on with the next one.
-/

namespace Paddock.Session

/-- One action on the slots. -/
inductive Step where
  | new (slot : String) (record : Record)
  | reference (slot : String)
  | newCar (slot engine : String) (maxSpeed weight : Int32) (color : String)
  | newShowcase (slot engine car : String)
  | copy (slot source : String) (path : Path)
  | put (slot source : String) (path : Path)
  | set (slot : String) (path : Path) (value : Scalar)
  | appendColor (slot text : String)
  | report (slot into : String)
  | text (slot : String)
  | program (slot : String)
  | deliver (slot : String) (sink : Sink)
  | quantities (slot : String)
  | outline (slot : String) (pretty : Bool)
  | equal (left right : String)

/-- What a step that succeeds replies. -/
inductive Reply where
  | record (record : Record)
  | text (text : String)
  | outcome (outcome : Outcome)
  | quantities (quantities : Quantities)
  | equal (equal differ : Bool)
deriving DecidableEq

/-- The change that appends to a text. -/
def append (suffix : String) : Part → Option Part
  | .scalar (.text s) => some (.text (s ++ suffix))
  | _ => none

/-- The record a step stores and the name of the slot it goes to; none if the step fails or stores
nothing. -/
def Step.stored? (slots : Slots) : Step → Option (String × Record)
  | new slot r => some (slot, r)
  | reference slot => some (slot, .showcase .reference)
  | newCar slot engine maxSpeed weight color => do
    let e ← slots.engine? engine
    return (slot, .car ⟨maxSpeed, weight, e, color⟩)
  | newShowcase slot engine car => do
    let e ← slots.engine? engine
    let c ← slots.car? car
    return (slot, .showcase ⟨e, c⟩)
  | copy slot source path => do
    let r ← slots.get? source
    let part ← r.part? path
    let copied ← part.record?
    return (slot, copied)
  | put slot source path => do
    let r ← slots.get? slot
    let part ← slots.get? source
    let changed ← r.update? path fun _ => some (.record part)
    return (slot, changed)
  | set slot path value => do
    let r ← slots.get? slot
    let changed ← r.update? path fun _ => some (.scalar value)
    return (slot, changed)
  | appendColor slot suffix => do
    let r ← slots.get? slot
    let path ← r.colorPath?
    let changed ← r.update? path (append suffix)
    return (slot, changed)
  | report slot into => do
    let s ← slots.showcase? slot
    return (into, .report s.report)
  | _ => none

/-- The reply of a step that shows something; none if the step fails or is not of that sort. -/
def Step.shown? (slots : Slots) : Step → Option Reply
  | text slot => do
    let r ← slots.report? slot
    return .text r.text
  | program slot => do
    let s ← slots.showcase? slot
    return .text s.source
  | deliver slot sink => do
    let s ← slots.showcase? slot
    return .outcome (s.deliverReport sink)
  | quantities slot => do
    let r ← slots.get? slot
    let q ← r.quantities?
    return .quantities q
  | outline slot pretty => do
    let r ← slots.get? slot
    return .text (if pretty then r.outline.pretty else r.outline.compact)
  | equal left right => do
    let a ← slots.get? left
    let b ← slots.get? right
    let equal ← a.equal? b
    let differ ← a.differ? b
    return .equal equal differ
  | _ => none

/-- The slots after a step and the reply; a step that stores a record replies it. -/
def Step.run (slots : Slots) (step : Step) : Slots × Option Reply :=
  match step.stored? slots with
  | some (slot, r) => (slots.put slot r, some (.record r))
  | none => (slots, step.shown? slots)

/-- The slots after some steps and the replies in order; an entry that is no step fails. -/
def run (slots : Slots) : List (Option Step) → Slots × List (Option Reply)
  | [] => (slots, [])
  | none :: rest =>
    let (final, replies) := run slots rest
    (final, none :: replies)
  | some step :: rest =>
    let (next, reply) := step.run slots
    let (final, replies) := run next rest
    (final, reply :: replies)

end Paddock.Session
