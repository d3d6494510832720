import ArmServo.Decimal.Text
import ArmServo.Toml.Quote
import ArmServo.Toml.Value

/-!
# Writing a configuration text

What is written are texts, numbers and arrays of them. Arrays of two or more items take a line for
each; every header is preceded by an empty line.
-/

namespace ArmServo.Toml

inductive Atom where
  | text (s : String)
  | number (x : Float)

/-- What a written statement assigns. -/
inductive Content where
  | atom (a : Atom)
  | array (items : List Atom)

/-- The value that an item is read back as. -/
def Atom.value : Atom → Value
  | text s => .text s
  | number x => .number x

def Content.value : Content → Value
  | atom a => a.value
  | array items => .array false (items.map Atom.value)

/-- The fewest digits that read back, with a point in any case. -/
def writeNumber (x : Float) : String :=
  match Exact.ofFloat x with
  | .undefined => "nan"
  | .infinite _ => display x
  | .finite .. => if (display x).contains '.' then display x else display x ++ ".0"

namespace Atom

def write : Atom → List Char
  | text s => Quote.write s.toList
  | number x => (writeNumber x).toList

end Atom

def Content.write : Content → List Char
  | atom a => a.write
  | array [] => ['[', ']']
  | array [a] => ['['] ++ a.write ++ [']']
  | array items =>
    ['[', '\n'] ++
      items.flatMap (fun a => [' ', ' ', ' ', ' '] ++ a.write ++ [',', '\n']) ++ [']']

/-- The names of a key with dots between them. All names that are written are bare. -/
def Key.write (k : Key) : List Char :=
  k.path.flatMap (fun name => name.toList ++ ['.']) ++ k.name.toList

def Statement.write : Statement Content → List Char
  | assign key v => key.write ++ [' ', '=', ' '] ++ v.write ++ ['\n']
  | table key => ['\n', '['] ++ key.write ++ [']', '\n']
  | element key => ['\n', '[', '['] ++ key.write ++ [']', ']', '\n']

def writeStatements (statements : List (Statement Content)) : String :=
  String.ofList (statements.flatMap Statement.write)

end ArmServo.Toml
