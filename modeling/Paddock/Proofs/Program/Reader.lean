import Paddock.Program.Syntax
import Paddock.Proofs.Program.Constant

/-!
# Program — reading tokens

A recursive-descent reader of the fragment of C that programs are written in.  Each reader takes
what it reads off the front of a list of tokens and returns the rest.  `Program.ofTokens?` reads a
whole program and `Program.ofSource?` a source text; the paragraphs of a main function cannot be
seen in its tokens, so a program that is read has one.
-/

namespace Paddock.Program

/-! ### Readers -/

/-- The words that are not names. -/
def keywords : List String :=
  [ "auto", "break", "case", "char", "const", "continue", "default", "do", "double", "else", "enum",
    "extern", "float", "for", "goto", "if", "inline", "int", "long", "register", "restrict",
    "return", "short", "signed", "sizeof", "static", "struct", "switch", "typedef", "union",
    "unsigned", "void", "volatile", "while" ]

/-- Whether a text may name something. -/
def isName (s : String) : Bool := isWord s && !keywords.contains s

/-- What is left after the expected tokens. -/
def skip? : List Token → List Token → Option (List Token)
  | [], ts => some ts
  | _ :: _, [] => none
  | expected :: es, t :: ts => if expected = t then skip? es ts else none

/-- A name. -/
def name? : List Token → Option (String × List Token)
  | .word s :: ts => if isName s then some (s, ts) else none
  | _ => none

section
variable {α : Type}

/-- As many items as there are, one after another. -/
def many (item? : List Token → Option (α × List Token)) (ts : List Token) : List α × List Token :=
  match item? ts with
  | none => ([], ts)
  | some (x, rest) =>
    if rest.length < ts.length then
      let (xs, rest') := many item? rest
      (x :: xs, rest')
    else ([], ts)
termination_by ts.length

/-- An item after a separator. -/
def after? (separator : Token) (item? : List Token → Option (α × List Token)) (ts : List Token) :
    Option (α × List Token) :=
  (skip? [separator] ts).bind item?

/-- Items in braces, with commas between them. -/
def braced? (item? : List Token → Option (α × List Token)) (ts : List Token) :
    Option (List α × List Token) := do
  let ts ← skip? [.sign '\x7b'] ts
  let (xs, ts) := match item? ts with
    | none => ([], ts)
    | some (x, ts) =>
      let (xs, ts) := many (after? (.sign ',') item?) ts
      (x :: xs, ts)
  let ts ← skip? [.sign '\x7d'] ts
  return (xs, ts)

/-- A member with its designator. -/
def designated? (value? : List Token → Option (α × List Token)) (ts : List Token) :
    Option ((String × α) × List Token) := do
  let ts ← skip? [.sign '.'] ts
  let (name, ts) ← name? ts
  let ts ← skip? [.sign '='] ts
  let (value, ts) ← value? ts
  return ((name, value), ts)

end

/-- The type of a member. -/
def memberType? : List Token → Option (MemberType × List Token)
  | .word "int" :: ts => some (.int, ts)
  | .word "float" :: ts => some (.float, ts)
  | .word "char" :: .sign '*' :: ts => some (.text, ts)
  | ts => (name? ts).map fun (name, ts) => (.record name, ts)

/-- The declaration of a member. -/
def member? (ts : List Token) : Option ((MemberType × String) × List Token) := do
  let (type, ts) ← memberType? ts
  let (name, ts) ← name? ts
  let ts ← skip? [.sign ';'] ts
  return ((type, name), ts)

/-- The declaration of a record type. -/
def recordType? (ts : List Token) : Option (RecordType × List Token) := do
  let ts ← skip? [.word "typedef", .word "struct", .sign '\x7b'] ts
  let (members, ts) := many member? ts
  let ts ← skip? [.sign '\x7d'] ts
  let (name, ts) ← name? ts
  let ts ← skip? [.sign ';'] ts
  return (⟨name, members⟩, ts)

/-- What a member is initialised with. -/
def initializer? (names : Names) (ts : List Token) : Option (Initializer × List Token) :=
  match ts with
  | .sign '\x7b' :: _ =>
    (braced? (designated? (scalar? names)) ts).map fun (members, ts) => (.record members, ts)
  | _ => (scalar? names ts).map fun (value, ts) => (.scalar value, ts)

/-- The definition of a global record. -/
def global? (names : Names) (ts : List Token) : Option (Global × List Token) := do
  let (type, ts) ← name? ts
  let (name, ts) ← name? ts
  let ts ← skip? [.sign '='] ts
  let (members, ts) ← braced? (designated? (initializer? names)) ts
  let ts ← skip? [.sign ';'] ts
  return (⟨type, name, members⟩, ts)

/-- A variable or a member of a global record. -/
def term? (ts : List Token) : Option (Expr × List Token) := do
  let (name, ts) ← name? ts
  match ts with
  | .sign '.' :: ts => (name? ts).map fun (field, ts) => (.member name field, ts)
  | ts => return (.ident name, ts)

/-- An expression: terms with plus signs between them, the first two added first. -/
def expr? (ts : List Token) : Option (Expr × List Token) := do
  let (first, ts) ← term? ts
  let (rest, ts) := many (after? (.sign '+') term?) ts
  return (rest.foldl .sum first, ts)

/-- A character in front of a format. -/
def verbatimCons (c : Char) : List Directive → List Directive
  | .verbatim s :: ds => .verbatim (String.ofList (c :: s.toList)) :: ds
  | ds => .verbatim (String.ofList [c]) :: ds

/-- The directives of a format, which ends at its first NUL. -/
def directives? : List Char → Option (List Directive)
  | [] | '\x00' :: _ => some []
  | '%' :: 'd' :: cs => (directives? cs).map (.int :: ·)
  | '%' :: '.' :: '2' :: 'f' :: cs => (directives? cs).map (.fixed :: ·)
  | '%' :: 's' :: cs => (directives? cs).map (.text :: ·)
  | c :: cs => if c = '%' then none else (directives? cs).map (verbatimCons c)

/-- A statement. -/
def statement? : List Token → Option (Statement × List Token)
  | .word "float" :: ts => do
    let (name, ts) ← name? ts
    let ts ← skip? [.sign '='] ts
    let (value, ts) ← expr? ts
    let ts ← skip? [.sign ';'] ts
    return (.declareFloat name value, ts)
  | .word "printf" :: .sign '(' :: .text format :: ts => do
    let format ← directives? format.toList
    let (arguments, ts) := many (after? (.sign ',') expr?) ts
    let ts ← skip? [.sign ')', .sign ';'] ts
    return (.print format arguments, ts)
  | .word "return" :: ts => do
    let (.int status, ts) ← scalar? .none ts | none
    let ts ← skip? [.sign ';'] ts
    return (.finish status, ts)
  | _ => none

/-- A program, with nothing after it. -/
def ofTokens? (names : Names) (ts : List Token) : Option Program := do
  let (types, ts) := many recordType? ts
  let (globals, ts) := many (global? names) ts
  let ts ← skip? [.word "int", .word "main", .sign '(', .sign ')', .sign '\x7b'] ts
  let (statements, ts) := many statement? ts
  let [] ← skip? [.sign '\x7d'] ts | none
  return ⟨types, globals, [statements]⟩

/-- The line that makes `printf` known. -/
def header : String := "#include <stdio.h>\n"

/-- The program of a source text: its lines are joined, its header is taken off, its tokens are
read. -/
def ofSource? (names : Names) (source : String) : Option Program := do
  let cs := splice source.toList
  guard (header.toList <+: cs)
  let ts ← tokens? (cs.drop header.length)
  ofTokens? names ts

end Paddock.Program
