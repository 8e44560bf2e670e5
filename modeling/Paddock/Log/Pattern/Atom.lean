import Paddock.Log.Pattern.Mode

/-!
# Log — patterns — atoms

An atom is a part of a pattern that has no parts.  Most characters stand for themselves; a backslash
in front takes the meaning from a sign and gives one to a letter.

No tables of characters are at hand when a pattern is read.  So a pattern over characters has no
caseless letters, no families of characters and no word edges, and a pattern over bytes must not
leave ASCII.
-/

namespace Paddock.Pattern

/-- A part of a pattern without parts. -/
inductive Atom where
  /-- A character. -/
  | char (c : Char)
  /-- A character written as the two digits of a byte. -/
  | byte (c : Char)
  /-- Any character. -/
  | any
  /-- The digits, the blanks or the characters of words, or all others. -/
  | family (others : Bool)
  /-- The beginning or the end of a line or of the text. -/
  | anchor
  /-- The edge of a word. -/
  | wordEdge
deriving DecidableEq

namespace Atom

/-- Whether an atom may stand in a pattern. -/
def allowed (m : Mode) : Atom → Bool
  | char _ => m.bytes || !m.caseless
  | byte c => if m.bytes then c.toNat < 0x80 else !m.caseless
  | any => !m.bytes
  | family others => m.bytes && !others
  | anchor => true
  | wordEdge => m.bytes

/-- Whether an atom may stand in a class of characters. -/
def allowedInClass (m : Mode) : Atom → Bool
  | char c | byte c => if m.bytes then c.toNat < 0x80 else !m.caseless
  | family others => m.bytes && !others
  | any | anchor | wordEdge => false

/-- The character an atom stands for. -/
def char? : Atom → Option Char
  | char c | byte c => some c
  | _ => none

/-- The atom of a character after a backslash. -/
def ofEscape? (c : Char) : Option Atom :=
  match c with
  | 'a' => some (char '\x07')
  | 't' => some (char '\t')
  | 'n' => some (char '\n')
  | 'v' => some (char '\x0b')
  | 'f' => some (char '\x0c')
  | 'r' => some (char '\r')
  | 'd' | 's' | 'w' => some (family false)
  | 'D' | 'S' | 'W' => some (family true)
  | 'A' | 'z' => some anchor
  | 'b' | 'B' | '<' | '>' => some wordEdge
  | _ => if c.toNat < 0x80 && !c.isAlphanum then some (char c) else none

/-- The value of a hexadecimal digit. -/
def hexValue? (c : Char) : Option Nat :=
  if c.isDigit then some (c.toNat - '0'.toNat)
  else if 'a' ≤ c ∧ c ≤ 'f' then some (c.toNat - 'a'.toNat + 10)
  else if 'A' ≤ c ∧ c ≤ 'F' then some (c.toNat - 'A'.toNat + 10)
  else none

/-- Reads so many hexadecimal digits after a value. -/
def hexDigits? (m : Mode) : Nat → Nat → List Char → Option (Nat × List Char)
  | 0, value, cs => some (value, cs)
  | digits + 1, value, cs =>
    match m.skip cs with
    | [] => none
    | c :: rest => do hexDigits? m digits (16 * value + (← hexValue? c)) rest

/-- Reads the character with a code point of so many hexadecimal digits. -/
def hexChar? (m : Mode) (digits : Nat) (cs : List Char) : Option (Char × List Char) := do
  let (value, rest) ← hexDigits? m digits 0 cs
  if value.isValidChar then some (Char.ofNat value, rest) else none

/-- Reads an atom after its backslash. -/
def escaped? (m : Mode) : List Char → Option (Atom × List Char)
  | [] => none
  | 'x' :: rest => (hexChar? m 2 rest).map fun (c, rest) => (byte c, rest)
  | 'u' :: rest => (hexChar? m 4 rest).map fun (c, rest) => (char c, rest)
  | 'U' :: rest => (hexChar? m 8 rest).map fun (c, rest) => (char c, rest)
  | c :: rest => (ofEscape? c).map (·, rest)

end Atom

end Paddock.Pattern
