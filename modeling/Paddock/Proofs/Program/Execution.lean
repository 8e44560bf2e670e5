import Paddock.Delivery.Report
import Paddock.Proofs.Program.Reader

/-!
# Program — running a program

`execute?` runs the main function of a program on its global records and gives what it prints and
the status it returns; `executeSource?` runs a source text, read as plain C.  There is no run where
C gives none: when a record does not fit its type, a name is not declared, a sum of whole numbers
overflows, or an argument does not fit its directive.

The machine has an `int` of 32 bits, a `float` of the 32-bit and a `double` of the 64-bit format,
and no extra precision.  A sum with a `float` in it is a sum of `float`s, and a `float` handed to
`printf` becomes a `double`.  A text is stored as its UTF-8 bytes with a zero behind them, and `%s`
prints the bytes before the first zero.
-/

namespace Paddock.Program

/-! ### Values -/

/-- The value of an expression; a text stands for the bytes it is stored in. -/
inductive Value where
  | int (n : Int32)
  | float (x : Single)
  | text (stored : List UInt8)
deriving DecidableEq

namespace Value

/-- The value of a scalar once it is stored. -/
def ofScalar : Scalar → Value
  | .int n => int n
  | .float x => float x
  | .text s => text (bytesOf s ++ [0])

/-- The value as a `float`. -/
def toFloat? : Value → Option Single
  | int n => some (Binary.ofInt n.toInt)
  | float x => some x
  | text _ => none

/-- The sum of two values: of whole numbers, if it is in range, or else of `float`s. -/
def add? : Value → Value → Option Value
  | int m, int n =>
    let sum := m.toInt + n.toInt
    if Int32.minValue.toInt ≤ sum ∧ sum ≤ Int32.maxValue.toInt then some (int (Int32.ofInt sum))
    else none
  | x, y => do
    let a ← x.toFloat?
    let b ← y.toFloat?
    return float (a.add b)

end Value

/-! ### Global records -/

/-- The type of a scalar. -/
def scalarType : Scalar → MemberType
  | .int _ => .int
  | .float _ => .float
  | .text _ => .text

/-- Whether an initialiser fits the type of its member. -/
def Initializer.fits (types : List RecordType) : Initializer → MemberType → Bool
  | scalar value, type => scalarType value = type
  | record members, .record name =>
    match types.find? (·.name = name) with
    | some t => t.members = members.map fun (name, value) => (scalarType value, name)
    | none => false
  | record _, _ => false

/-- Whether a global record has the members of its type, in their order. -/
def Global.fits (types : List RecordType) (g : Global) : Bool :=
  match types.find? (·.name = g.type) with
  | some t =>
    t.members.map (·.2) = g.members.map (·.1) &&
      (t.members.zip g.members).all fun (member, value) => value.2.fits types member.1
  | none => false

/-- The members of a global record. -/
def membersOf? (p : Program) (name : String) : Option (List (String × Initializer)) :=
  (p.globals.find? (·.name = name)).map Global.members

/-- The value of a member of a global record. -/
def memberValue? (p : Program) (global field : String) : Option Value := do
  let members ← p.membersOf? global
  let .scalar value ← members.lookup field | none
  return .ofScalar value

/-! ### Expressions -/

/-- The local variables with their values. -/
abbrev Locals := List (String × Single)

/-- The value of an expression. -/
def Expr.eval? (p : Program) (locals : Locals) : Expr → Option Value
  | ident name => (locals.lookup name).map .float
  | member global field => p.memberValue? global field
  | sum left right => do
    let x ← left.eval? p locals
    let y ← right.eval? p locals
    x.add? y

/-! ### Printing -/

/-- A quotient rounded to the nearest whole number, the even one of two equally near. -/
def divideEven (n d : Nat) : Nat :=
  if 2 * (n % d) < d then n / d
  else if d < 2 * (n % d) then n / d + 1
  else n / d + n / d % 2

/-- The decimal digits of a whole number, with a minus sign if it is negative. -/
def printInt (n : Int32) : List Char :=
  (if n.toInt < 0 then ['-'] else []) ++ digitsOf n.toInt.natAbs

/-- A `double` with two places; how the others are shown is left to the implementation. -/
def printFixed? : Double → Option (List Char)
  | .nan | .inf _ => none
  | .finite negative rank =>
    let hundredths := divideEven (100 * Format.double.units rank) Format.double.unitsPerOne
    some <| (if negative then ['-'] else []) ++ digitsOf (hundredths / 100) ++
      ['.', Nat.digitChar (hundredths / 10 % 10), Nat.digitChar (hundredths % 10)]

/-- What a directive prints of its argument; a text must have an end. -/
def Directive.print? : Directive → Value → Option (List UInt8)
  | int, .int n => some (bytesOf (String.ofList (printInt n)))
  | fixed, .float x => (printFixed? x.convert).map fun cs => bytesOf (String.ofList cs)
  | text, .text stored => if 0 ∈ stored then some (stored.takeWhile (· != 0)) else none
  | _, _ => none

/-- What a format prints of some arguments; those that no directive asks for are ignored. -/
def printFormat? : List Directive → List Value → Option (List UInt8)
  | [], _ => some []
  | .verbatim s :: ds, values => (printFormat? ds values).map (bytesOf s ++ ·)
  | _ :: _, [] => none
  | d :: ds, value :: values => do
    let bytes ← d.print? value
    let rest ← printFormat? ds values
    return bytes ++ rest

/-! ### Statements -/

/-- What a run has come to. -/
structure State where
  locals : Locals
  printed : List UInt8
deriving DecidableEq

/-- What a statement leads to: the next state, or the end of the run. -/
inductive Step where
  | next (state : State)
  | exit (status : Int32)
deriving DecidableEq

/-- What a statement makes of a state. -/
def Statement.step? (p : Program) (state : State) : Statement → Option Step
  | declareFloat name value => do
    guard (state.locals.lookup name).isNone
    let result ← value.eval? p state.locals
    let x ← result.toFloat?
    return .next { state with locals := (name, x) :: state.locals }
  | print format arguments => do
    let values ← arguments.mapM (·.eval? p state.locals)
    let bytes ← printFormat? format values
    return .next { state with printed := state.printed ++ bytes }
  | finish status => return .exit status

/-- What some statements print from a state on, and the status they return; the end of the main
function returns zero. -/
def run? (p : Program) : State → List Statement → Option (List UInt8 × Int32)
  | state, [] => some (state.printed, 0)
  | state, statement :: rest => do
    match ← statement.step? p state with
    | .next state => run? p state rest
    | .exit status => return (state.printed, status)

/-- What a program prints and returns. -/
def execute? (p : Program) : Option (List UInt8 × Int32) := do
  guard (p.globals.all (Global.fits p.types))
  run? p ⟨[], []⟩ p.main.flatten

/-- What a source text prints and returns when it is read as plain C. -/
def executeSource? (source : String) : Option (List UInt8 × Int32) :=
  (ofSource? .none source).bind execute?

/-! ### Runs -/

variable {p : Program} {state : State} {rest : List Statement}

theorem run?_declareFloat {name : String} {value : Expr} {result : Value} {x : Single}
    (hname : state.locals.lookup name = none) (hvalue : value.eval? p state.locals = some result)
    (hx : result.toFloat? = some x) :
    run? p state (.declareFloat name value :: rest) =
      run? p { state with locals := (name, x) :: state.locals } rest := by
  simp [run?, Statement.step?, hname, hvalue, hx, guard]

theorem run?_print {format : List Directive} {arguments : List Expr} {values : List Value}
    {bytes : List UInt8} (hvalues : arguments.mapM (·.eval? p state.locals) = some values)
    (hbytes : printFormat? format values = some bytes) :
    run? p state (.print format arguments :: rest) =
      run? p { state with printed := state.printed ++ bytes } rest := by
  simp [run?, Statement.step?, hvalues, hbytes]

end Paddock.Program
