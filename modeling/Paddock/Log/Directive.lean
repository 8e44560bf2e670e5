import Paddock.Log.Pattern.Reader
import Paddock.Log.Verbosity
import Paddock.Text.Cut
import Paddock.Text.Pieces

/-!
# Log — directives

A directive lets the events under its target through up to a level; the empty target stands for
every event.  It may name a span the events have to lie in and a value they have to carry:

* `LEVEL`
* `TARGET`
* `TARGET=LEVEL`
* `TARGET[SPAN{FIELD=PATTERN}]=LEVEL`

where in the last form every part may be left out.  A directive without a level is one for every
level.

Blanks around a directive do not count when its signs are looked for, and do count when its parts
are cut out: the parts are the stretches of the text with its blanks that have the offsets found in
the text without them.  So blanks in front shift each part to the left, and a directive is malformed
if a part then begins or ends inside a character.
-/

namespace Paddock

/-- A value a directive asks for, perhaps one that fits a pattern. -/
structure FieldTest where
  name : String
  pattern : Option String
deriving DecidableEq

namespace FieldTest

/-- The test a text writes: a name, perhaps with `=` and a number or a pattern after it. -/
def ofText? (cs : List Char) : Option FieldTest :=
  match pieces '=' cs with
  | [] | [[]] => none
  | [name] => some ⟨String.ofList name, none⟩
  | name :: pattern :: _ =>
    if isNumber pattern || Pattern.isPattern pattern then
      some ⟨String.ofList name, some (String.ofList pattern)⟩
    else none

/-- Whether an event passes a test.  Patterns are compared with the values of spans only, so that no
event fits one. -/
def holds (t : FieldTest) (e : Event) : Bool := t.pattern.isNone && e.names.contains t.name

end FieldTest

/-- A rule of a filter. -/
structure Directive where
  target : String
  span : Option String
  field : Option FieldTest
  verbosity : Verbosity
deriving DecidableEq

/-- Where the parts of a directive stand. -/
inductive Layout where
  /-- A level or a target alone. -/
  | bare
  /-- Parts with signs between them; the level runs from its offset to the end. -/
  | parts (target span field : Option Stretch) (level : Option Nat)
deriving DecidableEq

namespace Layout

/-- Whether a target may begin with a character. -/
def startsTarget (c : Char) : Bool := ['-', ':', '_'].contains c || isAlphanumeric c

/-- Whether a character ends a target. -/
def endsTarget (c : Char) : Bool := c == '=' || c == '['

/-- Whether a character ends the name of a span. -/
def endsSpan (c : Char) : Bool := c == ']' || c == '\x7b'

/-- What follows the closing bracket at an offset: nothing, or the offset of a level. -/
def level? (offset : Nat) : List Char → Option (Option Nat)
  | [] => some none
  | '=' :: _ => some (some (offset + 2))
  | _ => none

/-- The layout of a text after the opening bracket, which stands before an offset. -/
def bracketed? (target : Option Stretch) (offset : Nat) (cs : List Char) : Option Layout :=
  let name := cs.takeWhile (!endsSpan ·)
  let span : Stretch := ⟨offset, offset + byteCount name⟩
  match cs.dropWhile (!endsSpan ·) with
  | [] => none
  | ']' :: rest => (level? span.last rest).map (parts target (some span) none)
  | _ :: cs =>
    let field : Stretch := ⟨span.last + 1, span.last + 1 + byteCount (cs.takeWhile (· ≠ '\x7d'))⟩
    match cs.dropWhile (· ≠ '\x7d') with
    | _ :: ']' :: rest =>
      (level? (field.last + 1) rest).map
        (parts target (if name.isEmpty then none else some span) (some field))
    | _ => none

/-- The layout of a text. -/
def ofText? (cs : List Char) : Option Layout :=
  match cs with
  | [] => none
  | '[' :: rest => bracketed? none 1 rest
  | c :: _ =>
    let target : Stretch := ⟨0, byteCount (cs.takeWhile (!endsTarget ·))⟩
    if !startsTarget c then none
    else
      match cs.dropWhile (!endsTarget ·) with
      | [] => some bare
      | '=' :: _ => some (parts (some target) none none (some (target.last + 1)))
      | _ :: rest => bracketed? (some target) (target.last + 1) rest

end Layout

namespace Directive

/-- A directive about the events under a target. -/
def plain (target : String) (verbosity : Verbosity) : Directive := ⟨target, none, none, verbosity⟩

/-- The directive of a word: a level, or else a target. -/
def ofWord (cs : List Char) : Directive :=
  match Verbosity.ofText? cs with
  | some verbosity => plain "" verbosity
  | none => plain (String.ofList cs) (.upTo .trace)

/-- The verbosity of the level after `=`; no level is every level. -/
def verbosityOf? (cs : List Char) : Option Verbosity :=
  if cs.isEmpty then some (.upTo .trace) else Verbosity.ofText? cs

/-- The directive of a text, unless it is malformed. -/
def ofText? (cs : List Char) : Option Directive := do
  match ← Layout.ofText? (trim cs) with
  | .bare => some (ofWord cs)
  | .parts target span field level =>
    let target ← target.mapM (·.of? cs)
    let span ← span.mapM (·.of? cs)
    let field ← field.mapM fun stretch => (stretch.of? cs).bind FieldTest.ofText?
    let verbosity ← match level with
      | none => some (.upTo .trace)
      | some offset => (dropBytes? offset cs).bind verbosityOf?
    some ⟨String.ofList (target.getD []), span.map String.ofList, field, verbosity⟩

/-- Whether a directive speaks about an event.  No event lies in a span. -/
def applies (d : Directive) (e : Event) : Bool :=
  d.span.isNone && d.target.toList.isPrefixOf e.target.toList && d.field.all (·.holds e)

/-- Whether a directive gives way to a later one when both apply.  The longer target wins; with
targets of the same length a field that is asked for wins over none, and of two fields the one whose
name comes last in the order of texts. -/
def yieldsTo (d later : Directive) : Bool :=
  if d.target.length = later.target.length then
    match d.field, later.field with
    | none, _ => true
    | some _, none => false
    | some mine, some other => mine.name ≤ other.name
  else d.target.length < later.target.length

end Directive

end Paddock
