import Paddock.Log.Event
import Paddock.Text.Numeral

/-!
# Log — verbosity

How much is let through: nothing, or everything up to a level.  A verbosity is written as a name in
any letter case or as a number from zero to five.
-/

namespace Paddock

/-- The most verbose level let through, if any is. -/
inductive Verbosity where
  | off
  | upTo (level : Level)
deriving DecidableEq

namespace Verbosity

/-- Whether a level is let through. -/
def shows : Verbosity → Level → Bool
  | off, _ => false
  | upTo bound, level => level.rank ≤ bound.rank

/-- The verbosity of a number: zero is none, one to five are the levels in order. -/
def ofNat? : Nat → Option Verbosity
  | 0 => some off
  | 1 => some (upTo .error)
  | 2 => some (upTo .warn)
  | 3 => some (upTo .info)
  | 4 => some (upTo .debug)
  | 5 => some (upTo .trace)
  | _ => none

/-- The verbosity of a name in lower case. -/
def ofName? (name : String) : Option Verbosity :=
  match name with
  | "off" => some off
  | "error" => some (upTo .error)
  | "warn" => some (upTo .warn)
  | "info" => some (upTo .info)
  | "debug" => some (upTo .debug)
  | "trace" => some (upTo .trace)
  | _ => none

/-- The verbosity a text names, by number or by name in any letter case. -/
def ofText? (cs : List Char) : Option Verbosity :=
  match count? cs with
  | some n => ofNat? n
  | none => ofName? (String.ofList (cs.map Char.toLower))

end Verbosity

end Paddock
