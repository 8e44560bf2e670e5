import Paddock.Log.Directive

/-!
# Log — filters

A filter is a list of directives.  Of the directives that apply to an event the one with the longest
target decides; with targets of the same length one that asks for a field comes before one that does
not, and the last name before the others; of directives alike in all this the last one decides.  An
event to which none applies is dropped.

A setting is a list of directives with commas between them.  A setting in which any directive is
malformed is worth no more than a missing one: both fall back to warnings.  A setting without any
directive lets errors through.
-/

namespace Paddock

/-- A list of directives. -/
abbrev Filter := List Directive

namespace Filter

/-- The more specific of two directives. -/
def moreSpecific (best : Option Directive) (d : Directive) : Option Directive :=
  match best with
  | none => some d
  | some b => if b.yieldsTo d then some d else some b

/-- The directive that decides about an event. -/
def deciding? (filter : Filter) (e : Event) : Option Directive :=
  (filter.filter (·.applies e)).foldl moreSpecific none

/-- Whether an event is let through. -/
def enables (filter : Filter) (e : Event) : Bool :=
  match filter.deciding? e with
  | none => false
  | some d => d.verbosity.shows e.level

/-- The filter that lets every event through up to a level. -/
def everything (level : Level) : Filter := [.plain "" (.upTo level)]

/-- The filter of a well-formed setting. -/
def ofText? (text : String) : Option Filter := do
  let directives ← ((pieces ',' text.toList).filter (!·.isEmpty)).mapM Directive.ofText?
  if directives.isEmpty then some (everything .error) else some directives

/-- The filter of a setting, which may be missing or malformed. -/
def ofSetting (setting : Option String) : Filter := (setting.bind ofText?).getD (everything .warn)

end Filter

end Paddock
