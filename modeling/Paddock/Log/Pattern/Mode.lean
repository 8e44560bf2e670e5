import Paddock.Text.Class

/-!
# Log — patterns — mode

The mode of a pattern says how the text that follows is read.  It is changed by letters: those
before a dash are switched on, those after it off.
-/

namespace Paddock.Pattern

/-- How a pattern is read. -/
structure Mode where
  /-- Letters stand for both of their cases. -/
  caseless : Bool
  /-- The pattern matches bytes and not characters. -/
  bytes : Bool
  /-- Blanks and remarks between the parts of the pattern are passed over. -/
  spaced : Bool
deriving DecidableEq

/-- A text after its blanks and remarks; a remark runs from a number sign to the end of its line. -/
def skipBlanks (inRemark : Bool) : List Char → List Char
  | [] => []
  | c :: cs =>
    if inRemark then skipBlanks (c ≠ '\n') cs
    else if isBlank c then skipBlanks false cs
    else if c = '#' then skipBlanks true cs
    else c :: cs

namespace Mode

/-- The mode a pattern begins in. -/
def initial : Mode := ⟨false, false, false⟩

/-- What is read next. -/
def skip (m : Mode) (cs : List Char) : List Char := if m.spaced then skipBlanks false cs else cs

/-- The letters of a mode.  Those that `switch` passes over have to do with matching only. -/
def letters : List Char := ['i', 'm', 's', 'U', 'u', 'R', 'x']

/-- A mode after a letter is switched. -/
def switch (on : Bool) (m : Mode) : Char → Mode
  | 'i' => { m with caseless := on }
  | 'u' => { m with bytes := !on }
  | 'x' => { m with spaced := on }
  | _ => m

/-- A mode after a change.  No letter may come twice, there is one dash at most, and it is not the
last. -/
def change? (m : Mode) (change : List Char) : Option Mode :=
  if change.all ('-' :: letters).contains && decide change.Nodup && change.getLast? != some '-' then
    some ((change.dropWhile (· ≠ '-')).foldl (switch false)
      ((change.takeWhile (· ≠ '-')).foldl (switch true) m))
  else none

end Mode

end Paddock.Pattern
