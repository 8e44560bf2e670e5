import Paddock.Record.Basic
import Paddock.Text.Number

/-!
# Program — a fragment of C

The fragment that a showcase is written in: record types, global records with designated
initialisers, and a `main` that adds, prints and returns.  The syntax says what a program means;
columns, line breaks and headings are decided when it is written out.  Every node has a `text`, and
`Program.text` is the whole source file.

A number is written as its text, a floating-point one with the suffix `f`.  A text stands between
double quotes; quotes, backslashes and newlines inside it are escaped with a backslash and every
other character stands for itself.
-/

namespace Paddock.Program

/-! ### Literals -/

/-- A character as it stands inside a string literal. -/
def escape : Char → List Char
  | '"' => ['\\', '"']
  | '\\' => ['\\', '\\']
  | '\n' => ['\\', 'n']
  | c => [c]

/-- The characters of a string literal, the quotes included. -/
def encodeText (cs : List Char) : List Char := '"' :: cs.flatMap escape ++ ['"']

/-- A string literal. -/
def textLiteral (s : String) : String := String.ofList (encodeText s.toList)

/-- A literal of type `float`.  A number that is not finite has no literal; its name stands in
place of one. -/
def floatLiteral (x : Single) : String := x.exactText ++ "f"

/-- The literal of a scalar. -/
def literal : Scalar → String
  | .int n => intText n
  | .float x => floatLiteral x
  | .text s => textLiteral s

/-! ### Record types -/

/-- The type of a member. -/
inductive MemberType where
  | int
  | float
  | text
  | record (name : String)
deriving DecidableEq

/-- The name of a type. -/
def MemberType.name : MemberType → String
  | int => "int"
  | float => "float"
  | text => "char*"
  | record name => name

/-- A record type with its members in order. -/
structure RecordType where
  name : String
  members : List (MemberType × String)
deriving DecidableEq

/-- The declaration of a record type. -/
def RecordType.text (t : RecordType) : String :=
  "typedef struct \x7b\n" ++
    String.join (t.members.map fun (type, name) => "    " ++ type.name ++ " " ++ name ++ ";\n") ++
    "\x7d " ++ t.name ++ ";\n"

/-! ### Global records -/

/-- What a member is initialised with. -/
inductive Initializer where
  | scalar (value : Scalar)
  | record (members : List (String × Scalar))
deriving DecidableEq

/-- The designator of a member, in a column `width` wide. -/
def designator (width : Nat) (name : String) : String :=
  "." ++ name ++ String.ofList (List.replicate (width - name.length) ' ') ++ " = "

/-- The text of an initialiser; a record is written on one line. -/
def Initializer.text : Initializer → String
  | scalar value => literal value
  | record members =>
    "\x7b " ++
      String.intercalate ", "
        (members.map fun (name, value) => designator 0 name ++ literal value) ++
      " \x7d"

/-- A global record: its type, its name, its members. -/
structure Global where
  type : String
  name : String
  members : List (String × Initializer)
deriving DecidableEq

/-- The width of the column of designators: records of more than two members have their values
aligned behind the longest name. -/
def Global.column (g : Global) : Nat :=
  if g.members.length ≤ 2 then 0 else (g.members.map (·.1.length)).foldl max 0

/-- The definition of a global record. -/
def Global.text (g : Global) : String :=
  g.type ++ " " ++ g.name ++ " = \x7b\n" ++
    String.intercalate ",\n"
      (g.members.map fun (name, value) => "    " ++ designator g.column name ++ value.text) ++
    "\n\x7d;\n"

/-! ### The main function -/

/-- An expression. -/
inductive Expr where
  | ident (name : String)
  | member (global field : String)
  | sum (left right : Expr)
deriving DecidableEq

/-- The text of an expression. -/
def Expr.text : Expr → String
  | ident name => name
  | member global field => global ++ "." ++ field
  | sum left right => left.text ++ " + " ++ right.text

/-- A piece of a format. -/
inductive Directive where
  | verbatim (s : String)
  | int
  | fixed
  | text
deriving DecidableEq

/-- A piece of a format as it is spelled; `fixed` asks for two places. -/
def Directive.spelling : Directive → String
  | verbatim s => s
  | int => "%d"
  | fixed => "%.2f"
  | text => "%s"

/-- A statement of the main function. -/
inductive Statement where
  | declareFloat (name : String) (value : Expr)
  | print (format : List Directive) (arguments : List Expr)
  | finish (status : Int32)
deriving DecidableEq

/-- The arguments after a format: a single one follows it, several stand on a line of their own
below it. -/
def argumentsText : List Expr → String
  | [] => ""
  | [e] => ", " ++ e.text
  | es => ",\n           " ++ String.intercalate ", " (es.map Expr.text)

/-- A statement on a line of its own. -/
def Statement.text : Statement → String
  | declareFloat name value => "    float " ++ name ++ " = " ++ value.text ++ ";\n"
  | print format arguments =>
    "    printf(" ++ textLiteral (String.join (format.map Directive.spelling)) ++
      argumentsText arguments ++ ");\n"
  | finish status => "    return " ++ intText status ++ ";\n"

/-! ### Source files -/

/-- The heading of a section, filled up with dashes to 46 columns. -/
def heading (title : String) : String :=
  "// ----------- " ++ title ++ " " ++
    String.ofList (List.replicate (30 - title.length) '-') ++ "\n"

/-- Texts with an empty line between them. -/
def paragraphs (texts : List String) : String := String.intercalate "\n" texts

end Paddock.Program

namespace Paddock

/-- A program; its main function is a list of paragraphs of statements. -/
structure Program where
  types : List Program.RecordType
  globals : List Program.Global
  main : List (List Program.Statement)
deriving DecidableEq

end Paddock

namespace Paddock.Program

/-- The main function. -/
def mainText (p : Program) : String :=
  "int main() \x7b\n" ++
    paragraphs (p.main.map fun statements => String.join (statements.map Statement.text)) ++
    "\x7d\n"

/-- The whole source file. -/
def text (p : Program) : String :=
  paragraphs
    [ "#include <stdio.h>\n",
      heading "struct declaration" ++ paragraphs (p.types.map RecordType.text),
      heading "instances" ++ paragraphs (p.globals.map Global.text),
      heading "functions" ++ p.mainText ]

end Paddock.Program
