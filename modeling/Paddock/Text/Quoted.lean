import Paddock.Text.Hidden

/-!
# Text — quoted text

Quoted text stands between double quotes and holds no line break, no bare quote and no hidden
character.  Six characters have an escape of two characters; every other hidden character is
spelled by its number in hexadecimal between braces.  All else stands for itself, the single quote
included.
-/

namespace Paddock.Quoted

/-- The letter that follows the backslash for a character with an escape of two characters. -/
def letter? : Char → Option Char
  | '\x00' => some '0'
  | '\t' => some 't'
  | '\r' => some 'r'
  | '\n' => some 'n'
  | '"' => some '"'
  | '\\' => some '\\'
  | _ => none

/-- The number of a character in hexadecimal, lower case and without leading zeros. -/
def hexDigits (c : Char) : List Char := Nat.toDigits 16 c.toNat

/-- A character as it stands in quoted text. -/
def escape (c : Char) : List Char :=
  match letter? c with
  | some l => ['\\', l]
  | none =>
    if isHidden c then ['\\', 'u', '\x7b'] ++ hexDigits c ++ ['\x7d']
    else [c]

/-- The characters of a quoted text, the quotes included. -/
def encode (cs : List Char) : List Char := '"' :: cs.flatMap escape ++ ['"']

end Paddock.Quoted

namespace Paddock

/-- A text in quotes. -/
def quotedText (s : String) : String := String.ofList (Quoted.encode s.toList)

end Paddock
