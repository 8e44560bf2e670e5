import Paddock.Record.Basic

/-!
# Session — slots

Slots hold records by name.  Storing under a name in use replaces the record there; a new name goes
to the end.  What is stored under one name says nothing about any other.
-/

namespace Paddock

/-- Named records, in the order in which the names came up. -/
structure Slots where
  entries : List (String × Record)
deriving DecidableEq

namespace Slots

/-- No slots. -/
def empty : Slots := ⟨[]⟩

/-- The record under a name. -/
def get? (slots : Slots) (name : String) : Option Record := slots.entries.lookup name

/-- Entries with a record stored under a name. -/
def insert (name : String) (r : Record) : List (String × Record) → List (String × Record)
  | [] => [(name, r)]
  | (other, old) :: rest =>
    if other = name then (name, r) :: rest else (other, old) :: insert name r rest

/-- The slots with a record stored under a name. -/
def put (slots : Slots) (name : String) (r : Record) : Slots := ⟨insert name r slots.entries⟩

/-- The engine under a name. -/
def engine? (slots : Slots) (name : String) : Option Engine :=
  match slots.get? name with
  | some (.engine e) => some e
  | _ => none

/-- The car under a name. -/
def car? (slots : Slots) (name : String) : Option Car :=
  match slots.get? name with
  | some (.car c) => some c
  | _ => none

/-- The showcase under a name. -/
def showcase? (slots : Slots) (name : String) : Option Showcase :=
  match slots.get? name with
  | some (.showcase s) => some s
  | _ => none

/-- The report under a name. -/
def report? (slots : Slots) (name : String) : Option Report :=
  match slots.get? name with
  | some (.report r) => some r
  | _ => none

theorem lookup_insert_self (name : String) (r : Record) (entries : List (String × Record)) :
    (insert name r entries).lookup name = some r := by
  induction entries with
  | nil => simp [insert]
  | cons entry rest ih =>
    obtain ⟨other, old⟩ := entry
    by_cases h : other = name
    · simp [insert, h]
    · have h' : (name == other) = false := by simpa using Ne.symm h
      simp [insert, h, List.lookup_cons, h', ih]

theorem lookup_insert_of_ne {name other : String} (h : other ≠ name) (r : Record)
    (entries : List (String × Record)) :
    (insert name r entries).lookup other = entries.lookup other := by
  have hb : (other == name) = false := by simpa using h
  induction entries with
  | nil => simp [insert, List.lookup_cons, hb]
  | cons entry rest ih =>
    obtain ⟨third, old⟩ := entry
    by_cases ht : third = name
    · simp [insert, ht, List.lookup_cons, hb]
    · simp [insert, ht, List.lookup_cons, ih]

@[simp] theorem get?_put_self (slots : Slots) (name : String) (r : Record) :
    (slots.put name r).get? name = some r := lookup_insert_self name r slots.entries

theorem get?_put_of_ne (slots : Slots) {name other : String} (h : other ≠ name) (r : Record) :
    (slots.put name r).get? other = slots.get? other := lookup_insert_of_ne h r slots.entries

end Slots

end Paddock
