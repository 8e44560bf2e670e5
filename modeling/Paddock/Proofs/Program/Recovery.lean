import Paddock.Program.Showcase
import Paddock.Proofs.Binary.Pattern
import Paddock.Proofs.Program.Execution
import Paddock.Proofs.Program.Spelling

/-!
# Program — recovering a showcase from its program

The program of a showcase is legible whatever the showcase holds (`isLegible_program`), so its text
can be read back, and the two global records give the showcase again (`ofSource?_source`).  Numbers
that are not finite have no constant in C; the reader knows the names that stand in their place.

`Stored` is a showcase as its seven values are stored, torques as bit patterns.  Stored values agree
(`Agrees`) exactly if they are those of one showcase (`showcase_eq_iff`), so a source text
determines all seven, up to which NaN a torque was.
-/

namespace Paddock

/-! ### Reading the global records -/

namespace Program

/-- The members with a scalar as their value. -/
def scalarMembers (members : List (String × Initializer)) : List (String × Scalar) :=
  members.filterMap fun
    | (name, .scalar value) => some (name, value)
    | (_, .record _) => none

end Program

/-- The engine with some members. -/
def Engine.ofMembers? (members : List (String × Scalar)) : Option Engine := do
  let .int horsepower ← members.lookup "horsepower" | none
  let .float torque ← members.lookup "torque" | none
  return ⟨horsepower, torque⟩

/-- The car with some members. -/
def Car.ofMembers? (members : List (String × Program.Initializer)) : Option Car := do
  let .scalar (.int maxSpeed) ← members.lookup "maxSpeed" | none
  let .scalar (.int weight) ← members.lookup "weight" | none
  let .record engine ← members.lookup "engine" | none
  let engine ← Engine.ofMembers? engine
  let .scalar (.text color) ← members.lookup "color" | none
  return ⟨maxSpeed, weight, engine, color⟩

namespace Showcase

/-- The showcase that a program holds. -/
def ofProgram? (p : Program) : Option Showcase := do
  let engineMembers ← p.membersOf? "myEngine"
  let engine ← Engine.ofMembers? (Program.scalarMembers engineMembers)
  let carMembers ← p.membersOf? "MySuperCar"
  let car ← Car.ofMembers? carMembers
  return ⟨engine, car⟩

/-- The showcase that a source text holds. -/
def ofSource? (source : String) : Option Showcase :=
  (Program.ofSource? .nonFinite source).bind ofProgram?

/-! ### The program of a showcase -/

/-- Every name in the program of a showcase is a name. -/
theorem isName_of_mem : ∀ name ∈ ["Engine", "Car", "myEngine", "MySuperCar", "horsepower", "torque",
    "maxSpeed", "weight", "engine", "color"], Program.isName name = true := by
  decide +kernel

theorem legibleMembers_engineMembers {names : Program.Names} {e : Engine}
    (h : Program.Legible names (.float e.torque)) :
    Program.LegibleMembers (Program.Legible names) (Program.engineMembers e) := by
  intro member hmem
  rcases List.mem_pair.1 hmem with rfl | rfl
  · exact ⟨isName_of_mem _ (by simp), trivial⟩
  · exact ⟨isName_of_mem _ (by simp), h⟩

theorem isLegible_engineGlobal {names : Program.Names} {e : Engine}
    (h : Program.Legible names (.float e.torque)) : (Program.engineGlobal e).IsLegible names := by
  refine ⟨isName_of_mem "Engine" (by simp), isName_of_mem "myEngine" (by simp), ?_⟩
  intro member hmem
  obtain ⟨scalar, hscalar, rfl⟩ := List.mem_map.1 hmem
  exact legibleMembers_engineMembers h scalar hscalar

theorem isLegible_carGlobal {names : Program.Names} {c : Car}
    (h : Program.Legible names (.float c.engine.torque)) :
    (Program.carGlobal c).IsLegible names := by
  refine ⟨isName_of_mem "Car" (by simp), isName_of_mem "MySuperCar" (by simp), ?_⟩
  intro member hmem
  simp only [Program.carGlobal, List.mem_cons, List.not_mem_nil, or_false] at hmem
  rcases hmem with rfl | rfl | rfl | rfl
  · exact ⟨isName_of_mem _ (by simp), trivial⟩
  · exact ⟨isName_of_mem _ (by simp), trivial⟩
  · exact ⟨isName_of_mem _ (by simp), legibleMembers_engineMembers h⟩
  · exact ⟨isName_of_mem _ (by simp), trivial⟩

/-- The program of a showcase is legible when its two torques are. -/
theorem isLegible_program {names : Program.Names} {s : Showcase}
    (hengine : Program.Legible names (.float s.engine.torque))
    (hcar : Program.Legible names (.float s.car.engine.torque)) : s.program.IsLegible names := by
  have htypes : [Program.engineType, Program.carType].all Program.RecordType.isLegible = true := by
    decide +kernel
  have hmain : Program.reportMain.flatten.all Program.Statement.isLegible = true := by
    decide +kernel
  refine ⟨htypes, ?_, hmain⟩
  intro g hg
  rcases List.mem_pair.1 hg with rfl | rfl
  · exact isLegible_engineGlobal hengine
  · exact isLegible_carGlobal hcar

/-- The text of the program is read as the program, with one paragraph of statements. -/
theorem program_ofSource? {names : Program.Names} {s : Showcase}
    (hengine : Program.Legible names (.float s.engine.torque))
    (hcar : Program.Legible names (.float s.car.engine.torque)) :
    Program.ofSource? names s.source =
      some { s.program with main := [Program.reportMain.flatten] } :=
  Program.ofSource?_text (isLegible_program hengine hcar)

theorem ofProgram?_program (s : Showcase) (main : List (List Program.Statement)) :
    ofProgram? { s.program with main } = some s := rfl

/-- **A showcase is recovered from its source text.** -/
theorem ofSource?_source (s : Showcase) : ofSource? s.source = some s := by
  rw [ofSource?, program_ofSource? (Program.legible_nonFinite _) (Program.legible_nonFinite _),
    Option.bind_some, ofProgram?_program]

/-! ### Stored values -/

/-- A showcase as its seven values are stored. -/
structure Stored where
  horsepower : Int32
  torque : BitVec 32
  maxSpeed : Int32
  weight : Int32
  carHorsepower : Int32
  carTorque : BitVec 32
  color : String
deriving DecidableEq

namespace Stored

/-- The showcase of stored values. -/
def showcase (a : Stored) : Showcase where
  engine := ⟨a.horsepower, .ofBits a.torque⟩
  car := ⟨a.maxSpeed, a.weight, ⟨a.carHorsepower, .ofBits a.carTorque⟩, a.color⟩

/-- The values to store for a showcase. -/
def ofShowcase (s : Showcase) : Stored where
  horsepower := s.engine.horsepower
  torque := s.engine.torque.toBits
  maxSpeed := s.car.maxSpeed
  weight := s.car.weight
  carHorsepower := s.car.engine.horsepower
  carTorque := s.car.engine.torque.toBits
  color := s.car.color

/-- The stored values that a source text holds. -/
def ofSource? (source : String) : Option Stored := (Showcase.ofSource? source).map ofShowcase

/-- All seven values agree, torques bit for bit except that all NaNs are one value. -/
structure Agrees (a b : Stored) : Prop where
  horsepower : a.horsepower = b.horsepower
  torque : Binary.Alike (f := .single) a.torque b.torque
  maxSpeed : a.maxSpeed = b.maxSpeed
  weight : a.weight = b.weight
  carHorsepower : a.carHorsepower = b.carHorsepower
  carTorque : Binary.Alike (f := .single) a.carTorque b.carTorque
  color : a.color = b.color

/-- Values that agree are the values of one showcase. -/
theorem showcase_eq_iff {a b : Stored} : a.showcase = b.showcase ↔ a.Agrees b := by
  have htorque := Binary.ofBits_eq_iff (f := .single) (u := a.torque) (v := b.torque)
  have hcar := Binary.ofBits_eq_iff (f := .single) (u := a.carTorque) (v := b.carTorque)
  simp only [showcase, Showcase.mk.injEq, Engine.mk.injEq, Car.mk.injEq, htorque, hcar]
  constructor
  · rintro ⟨⟨h₁, h₂⟩, h₃, h₄, ⟨h₅, h₆⟩, h₇⟩
    exact ⟨h₁, h₂, h₃, h₄, h₅, h₆, h₇⟩
  · rintro ⟨h₁, h₂, h₃, h₄, h₅, h₆, h₇⟩
    exact ⟨⟨h₁, h₂⟩, h₃, h₄, ⟨h₅, h₆⟩, h₇⟩

theorem showcase_ofShowcase (s : Showcase) : (ofShowcase s).showcase = s := by
  have htorque := Binary.ofBits_toBits (f := .single) (by decide)
  simp [showcase, ofShowcase, htorque]

end Stored

/-- **A source text loses nothing.**  There is a reader that recovers the seven values of any
showcase from its source text, so two showcases have one source text only if all seven agree. -/
theorem source_eq_iff_agrees :
    (∀ a : Stored, ∃ b, Stored.ofSource? a.showcase.source = some b ∧ b.Agrees a) ∧
      ∀ a b : Stored, a.showcase.source = b.showcase.source ↔ a.Agrees b := by
  constructor
  · intro a
    refine ⟨.ofShowcase a.showcase, ?_, ?_⟩
    · rw [Stored.ofSource?, ofSource?_source, Option.map_some]
    · exact Stored.showcase_eq_iff.1 (Stored.showcase_ofShowcase _)
  · intro a b
    rw [← Stored.showcase_eq_iff]
    constructor
    · intro h
      have hread := ofSource?_source a.showcase
      rw [h, ofSource?_source] at hread
      exact (Option.some.inj hread).symm
    · exact congrArg source

end Showcase

end Paddock
