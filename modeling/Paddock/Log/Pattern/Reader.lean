import Paddock.Log.Pattern.Atom
import Paddock.Text.Class

/-!
# Log — patterns — what is a pattern

A pattern is read from left to right with the groups and classes that are open.  Of what has been
read only its depth is kept: parts that stand side by side, alternatives, groups, classes and
repetitions each nest their parts one level deeper.  A text is a pattern when every group and class
is closed at its end and it does not nest too deeply.

The values for which patterns are written end at a closing brace, so that nothing in braces is ever
complete: an opening brace has no place in a pattern, except in a class.
-/

namespace Paddock.Pattern

/-- The depth of parts that stand together; a single part stands for itself. -/
def together : List Nat → Nat
  | [] => 0
  | [depth] => depth
  | depths => depths.foldl max 0 + 1

/-- Which signs still stand for themselves at the front of a class. -/
inductive Front where
  /-- A dash and a closing bracket. -/
  | opened
  /-- A dash. -/
  | dashed
  /-- Neither. -/
  | passed
deriving DecidableEq

/-- A class of characters that is being read. -/
structure OpenClass where
  front : Front
  /-- The depths of its items since the last operator. -/
  items : List Nat
  /-- The depth of what stands before the last operator. -/
  before : Option Nat

namespace OpenClass

/-- A class just after its opening bracket. -/
def empty : OpenClass := ⟨.opened, [], none⟩

/-- A class with one more item. -/
def push (k : OpenClass) (depth : Nat) : OpenClass :=
  { k with front := .passed, items := depth :: k.items }

/-- The depth of what has been read of a class. -/
def depth (k : OpenClass) : Nat :=
  match k.before with
  | none => together k.items
  | some before => max before (together k.items) + 1

/-- A class after an operator between its items. -/
def operator (k : OpenClass) : OpenClass := ⟨.passed, [], some k.depth⟩

end OpenClass

/-- The names of the classes that may stand between colons. -/
def classNames : List String :=
  [ "alnum", "alpha", "ascii", "blank", "cntrl", "digit", "graph", "lower", "print", "punct",
    "space", "upper", "word", "xdigit" ]

/-- Reads a class given by its name, after the opening bracket; the class may be complemented. -/
def namedClass? : List Char → Option (Bool × List Char)
  | ':' :: cs =>
    let complemented := cs.head? == some '^'
    let cs := if complemented then cs.drop 1 else cs
    match cs.dropWhile (· ≠ ':') with
    | ':' :: ']' :: rest =>
      if classNames.contains (String.ofList (cs.takeWhile (· ≠ ':'))) then some (complemented, rest)
      else none
    | _ => none
  | _ => none

/-- Reads an atom in a class. -/
def classAtom? (m : Mode) : List Char → Option (Atom × List Char)
  | [] => none
  | '\\' :: rest => Atom.escaped? m rest
  | c :: rest => some (.char c, rest)

/-- Whether the dash before a text is not the middle of a range: a bracket or another dash follows,
after blanks and at most one number sign when the pattern is spaced. -/
def endsRange (m : Mode) (cs : List Char) : Bool :=
  let next := if m.spaced then
      match cs.dropWhile isBlank with
      | '#' :: rest => (rest.dropWhile isBlank).head?
      | rest => rest.head?
    else cs.head?
  next == some ']' || next == some '-'

/-- Reads an atom in a class, or a range from one character to another that is not before it. -/
def classItem? (m : Mode) (cs : List Char) : Option (List Char) := do
  let (atom, rest) ← classAtom? m cs
  if !atom.allowedInClass m then none
  else
    match m.skip rest with
    | '-' :: afterDash =>
      if endsRange m afterDash then some rest
      else
        let (last, rest) ← classAtom? m (m.skip afterDash)
        let first ← atom.char?
        if last.allowedInClass m && first ≤ (← last.char?) then some rest else none
    | _ => some rest

/-- The parts of a group that is being read. -/
structure Contents where
  /-- The depths of the parts of the last alternative, the last part first.  A change of mode is a
  part that cannot be repeated and has no depth. -/
  parts : List (Option Nat)
  /-- The depths of the alternatives before it. -/
  alternatives : List Nat

namespace Contents

/-- Nothing yet. -/
def empty : Contents := ⟨[], []⟩

/-- One more part. -/
def push (k : Contents) (depth : Nat) : Contents := { k with parts := some depth :: k.parts }

/-- One more change of mode. -/
def pushChange (k : Contents) : Contents := { k with parts := none :: k.parts }

/-- The last part repeated. -/
def repeated? (k : Contents) : Option Contents :=
  match k.parts with
  | some depth :: parts => some { k with parts := some (depth + 1) :: parts }
  | _ => none

/-- The depth of the last alternative. -/
def lastDepth (k : Contents) : Nat := together (k.parts.map (·.getD 0))

/-- The depth of all alternatives. -/
def depth (k : Contents) : Nat := together (k.lastDepth :: k.alternatives)

/-- One more alternative. -/
def alternative (k : Contents) : Contents := ⟨[], k.lastDepth :: k.alternatives⟩

end Contents

/-- What has been read of a pattern. -/
structure Reading where
  mode : Mode
  /-- The names given to groups. -/
  names : List (List Char)
  /-- The innermost group. -/
  contents : Contents
  /-- The groups around it, each with the mode that comes back at the end of the group inside. -/
  outer : List (Mode × Contents)
  /-- The classes that are open, the innermost first. -/
  classes : List OpenClass

namespace Reading

/-- A pattern of which nothing has been read. -/
def initial : Reading := ⟨.initial, [], .empty, [], []⟩

/-- Reads an atom into the innermost group. -/
def atom? (s : Reading) (atom : Atom) : Option Reading :=
  if atom.allowed s.mode then some { s with contents := s.contents.push 0 } else none

/-- The reading with a class as the innermost one and some classes around it. -/
def putClass (s : Reading) (k : OpenClass) (around : List OpenClass) : Reading :=
  { s with classes := k :: around }

/-- Reads the opening bracket of a class, perhaps a complemented one, with some classes around. -/
def openClass? (s : Reading) (around : List OpenClass) (cs : List Char) :
    Option (Reading × List Char) :=
  match s.mode.skip cs with
  | '^' :: rest => if s.mode.bytes then none else some (s.putClass .empty around, rest)
  | rest => some (s.putClass .empty around, rest)

/-- Reads the closing bracket of a class. -/
def closeClass (s : Reading) (k : OpenClass) (around : List OpenClass) : Reading :=
  match around with
  | [] => { s with classes := [], contents := s.contents.push (k.depth + 1) }
  | parent :: around => s.putClass (parent.push (k.depth + 1)) around

/-- Reads a dash or a bracket that stands for itself. -/
def frontSign? (s : Reading) (k : OpenClass) (around : List OpenClass) (front : Front) (c : Char) :
    Option Reading :=
  if (Atom.char c).allowedInClass s.mode then
    some (s.putClass { k.push 0 with front := front } around)
  else none

/-- Reads on in a class. -/
def inClass? (s : Reading) (k : OpenClass) (around : List OpenClass) (cs : List Char) :
    Option (Reading × List Char) :=
  match k.front, cs with
  | .opened, ']' :: rest => (s.frontSign? k around .passed ']').map (·, rest)
  | .opened, '-' :: rest => (s.frontSign? k around .dashed '-').map (·, rest)
  | .dashed, '-' :: rest => (s.frontSign? k around .dashed '-').map (·, rest)
  | _, '[' :: rest =>
    match namedClass? rest with
    | some (complemented, rest) =>
      if (if s.mode.bytes then complemented else s.mode.caseless) then none
      else some (s.putClass (k.push 0) around, rest)
    | none => s.openClass? (k :: around) rest
  | _, ']' :: rest => some (s.closeClass k around, rest)
  | _, '&' :: '&' :: rest => some (s.putClass k.operator around, rest)
  | _, '-' :: '-' :: rest => some (s.putClass k.operator around, rest)
  | _, '~' :: '~' :: rest => some (s.putClass k.operator around, rest)
  | _, cs => (classItem? s.mode cs).map (s.putClass (k.push 0) around, ·)

/-- The reading inside a group that has just begun, in a mode of its own. -/
def enter (s : Reading) (mode : Mode) : Reading :=
  { s with mode := mode, contents := .empty, outer := (s.mode, s.contents) :: s.outer }

/-- Reads the end of a group. -/
def leave? (s : Reading) : Option Reading :=
  match s.outer with
  | [] => none
  | (mode, contents) :: outer =>
    some { s with mode := mode, contents := contents.push (s.contents.depth + 1), outer := outer }

/-- Whether a text may name a group: it begins with a letter or a low line, and numbers, points and
brackets may follow. -/
def isGroupName : List Char → Bool
  | [] => false
  | c :: cs => (c == '_' || isAlphabetic c) &&
      cs.all fun c => ['_', '.', '[', ']'].contains c || isAlphanumeric c

/-- Reads the name of a group, which no other group has, and the sign after it. -/
def enterNamed? (s : Reading) (cs : List Char) : Option (Reading × List Char) :=
  let name := cs.takeWhile (· ≠ '>')
  match cs.dropWhile (· ≠ '>') with
  | [] => none
  | _ :: rest =>
    if isGroupName name && !s.names.contains name then
      some ({ s with names := name :: s.names }.enter s.mode, rest)
    else none

/-- Reads a change of mode, for what follows it or for a group of its own. -/
def change? (s : Reading) (cs : List Char) : Option (Reading × List Char) := do
  let isEnd (c : Char) : Bool := c == ')' || c == ':'
  let change := cs.takeWhile (!isEnd ·)
  let mode ← s.mode.change? change
  match cs.dropWhile (!isEnd ·) with
  | ')' :: rest =>
    if change.isEmpty then none
    else some ({ s with mode := mode, contents := s.contents.pushChange }, rest)
  | ':' :: rest => some (s.enter mode, rest)
  | _ => none

/-- Reads the beginning of a group, after its parenthesis. -/
def open? (s : Reading) (cs : List Char) : Option (Reading × List Char) :=
  match s.mode.skip cs with
  | '?' :: 'P' :: '<' :: rest => s.enterNamed? rest
  | '?' :: '<' :: rest => s.enterNamed? rest
  | '?' :: rest => s.change? rest
  | rest => some (s.enter s.mode, rest)

/-- Reads a repetition; a question mark right after its sign makes it a short one. -/
def repeat? (s : Reading) (cs : List Char) : Option (Reading × List Char) := do
  let contents ← s.contents.repeated?
  some ({ s with contents := contents }, if cs.head? == some '?' then cs.drop 1 else cs)

/-- Reads on in a group. -/
def inGroup? (s : Reading) : List Char → Option (Reading × List Char)
  | [] => none
  | '(' :: rest => s.open? rest
  | ')' :: rest => s.leave?.map (·, rest)
  | '|' :: rest => some ({ s with contents := s.contents.alternative }, rest)
  | '[' :: rest => s.openClass? [] rest
  | '*' :: rest => s.repeat? rest
  | '+' :: rest => s.repeat? rest
  | '?' :: rest => s.repeat? rest
  | '\x7b' :: _ => none
  | '\\' :: rest => do
    let (atom, rest) ← Atom.escaped? s.mode rest
    (s.atom? atom).map (·, rest)
  | '.' :: rest => (s.atom? .any).map (·, rest)
  | '^' :: rest => (s.atom? .anchor).map (·, rest)
  | '$' :: rest => (s.atom? .anchor).map (·, rest)
  | c :: rest => (s.atom? (.char c)).map (·, rest)

/-- Reads a part of a pattern. -/
def step? (s : Reading) (cs : List Char) : Option (Reading × List Char) :=
  match s.classes with
  | [] => s.inGroup? cs
  | k :: around => s.inClass? k around cs

/-- Reads a text in so many steps at most. -/
def run? : Nat → Reading → List Char → Option Reading
  | 0, s, cs => if (s.mode.skip cs).isEmpty then some s else none
  | steps + 1, s, cs =>
    match s.mode.skip cs with
    | [] => some s
    | cs => do
      let (s, rest) ← s.step? cs
      run? steps s rest

/-- How deep a pattern may nest. -/
def greatestDepth : Nat := 250

/-- Whether a pattern may end here. -/
def isComplete (s : Reading) : Bool :=
  s.classes.isEmpty && s.outer.isEmpty && s.contents.depth ≤ greatestDepth

end Reading

/-- Whether a text is a pattern.  Every step reads a character at least, so there are no more steps
than characters. -/
def isPattern (cs : List Char) : Bool :=
  (Reading.run? cs.length .initial cs).any Reading.isComplete

end Paddock.Pattern
