import Paddock.Binary.Round

/-!
# Binary — arithmetic

Each operation on finite numbers is the exact one rounded once.  A sum that is exactly zero is
positive unless both terms are negative; products and quotients take the exclusive or of the
signs, on zeros and infinities too.  An operation without a meaningful result is NaN.
-/

namespace Paddock.Binary

variable {f : Format}

/-- The sum, rounded once. -/
def add : Binary f → Binary f → Binary f
  | nan, _ | _, nan => nan
  | inf s, inf t => if s = t then inf s else nan
  | inf s, finite .. => inf s
  | finite .., inf t => inf t
  | finite s a, finite t b =>
    let sum := signed s (magnitude f a) + signed t (magnitude f b)
    if sum = 0 then round (s && t) 0 else ofRat sum

/-- The product, rounded once. -/
def mul : Binary f → Binary f → Binary f
  | nan, _ | _, nan => nan
  | inf s, inf t => inf (s ^^ t)
  | inf s, finite t b => if b.val = 0 then nan else inf (s ^^ t)
  | finite s a, inf t => if a.val = 0 then nan else inf (s ^^ t)
  | finite s a, finite t b => round (s ^^ t) (magnitude f a * magnitude f b)

/-- The quotient, rounded once; a nonzero number over zero is an infinity. -/
def div : Binary f → Binary f → Binary f
  | nan, _ | _, nan => nan
  | inf _, inf _ => nan
  | inf s, finite t _ => inf (s ^^ t)
  | finite s _, inf t => round (s ^^ t) 0
  | finite s a, finite t b =>
    if b.val = 0 then
      if a.val = 0 then nan else inf (s ^^ t)
    else round (s ^^ t) (magnitude f a / magnitude f b)

/-- The nearest number of another format, with the same sign. -/
def convert {g : Format} : Binary f → Binary g
  | nan => nan
  | inf s => inf s
  | finite s a => round s (magnitude f a)

end Paddock.Binary
