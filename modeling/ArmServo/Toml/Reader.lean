import ArmServo.Toml.Numeral
import ArmServo.Toml.Table

/-!
# Reading a configuration text

Every reader splits off what it reads and leaves the rest of the text. A statement begins and ends
a line. Within an array or an inline table blanks, comments and line ends may stand around keys and
values, and a comma may follow the last of them. Loops carry a bound on their rounds, which the
length of the text provides; the names of a key and the nesting of arrays and inline tables are
bounded.
-/

namespace ArmServo.Toml

/-! ## keys -/

def isBareChar (c : Char) : Bool := c.isAlphanum || c == '_' || c == '-'

def readName? : Reader String
  | '"' :: r => (Quote.readBasic r).map fun (t, r) => (String.ofList t, r)
  | '\'' :: r => (Quote.readLiteral r).map fun (t, r) => (String.ofList t, r)
  | cs =>
    let name := cs.takeWhile isBareChar
    if name.isEmpty then none else some (String.ofList name, cs.dropWhile isBareChar)

/-- At most the given number of names with dots between them and blanks around these. -/
def readKey? : (names : Nat) → Reader Key
  | 0, _ => none
  | names + 1, cs => do
    let (name, r) ← readName? cs
    match dropBlanks r with
    | '.' :: r => do
      let (key, r) ← readKey? names (dropBlanks r)
      some (key.within name, r)
    | r => some (⟨[], name⟩, r)

/-- The most names in a key, and the deepest nesting of arrays and inline tables. -/
def maximalDepth : Nat := 80

def key? : Reader Key := readKey? maximalDepth

/-! ## values -/

/-- The items of an array up to its closing bracket. -/
def readItems? (value? : Reader Value) : (rounds : Nat) → Reader (List Value)
  | 0, _ => none
  | rounds + 1, cs => do
    match ← skip? false cs with
    | ']' :: r => some ([], r)
    | cs => do
      let (v, r) ← value? cs
      match ← skip? false r with
      | ',' :: r => do
        let (vs, r) ← readItems? value? rounds r
        some (v :: vs, r)
      | ']' :: r => some ([v], r)
      | _ => none

/-- A key, an equals sign and a value; `gap?` skips what may stand between them. -/
def readAssignment? (gap? : List Char → Option (List Char)) (value? : Reader Value) :
    Reader (Key × Value) := fun cs => do
  let (key, r) ← key? cs
  match ← gap? r with
  | '=' :: r => do
    let (v, r) ← value? (← gap? r)
    some ((key, v), r)
  | _ => none

/-- The assignments of an inline table up to its closing brace. -/
def readAssignments? (value? : Reader Value) : (rounds : Nat) → Reader (List (Key × Value))
  | 0, _ => none
  | rounds + 1, cs => do
    match ← skip? false cs with
    | '}' :: r => some ([], r)
    | cs => do
      let (a, r) ← readAssignment? (skip? false) value? cs
      match ← skip? false r with
      | ',' :: r => do
        let (as, r) ← readAssignments? value? rounds r
        some (a :: as, r)
      | '}' :: r => some ([a], r)
      | _ => none

def readArray? (value? : Reader Value) : Reader Value := fun cs =>
  (readItems? value? cs.length cs).map fun (items, r) => (.array false items, r)

def readInline? (value? : Reader Value) : Reader Value := fun cs => do
  let (as, r) ← readAssignments? value? cs.length cs
  let entries ← Entries.assignAll [] as
  some (.table .inline entries, r)

/-- A text or a value without quotes. -/
def readPlain? : Reader Value
  | '"' :: r => (Quote.read? ('"' :: r)).map fun (t, r) => (.text (String.ofList t), r)
  | '\'' :: r => (Quote.read? ('\'' :: r)).map fun (t, r) => (.text (String.ofList t), r)
  | cs => Numeral.read? cs

/-- A value whose arrays and inline tables are nested to the given depth at most. -/
def readValue? : (depth : Nat) → Reader Value
  | depth + 1, '[' :: r => readArray? (readValue? depth) r
  | depth + 1, '{' :: r => readInline? (readValue? depth) r
  | _, cs => readPlain? cs

/-! ## statements -/

/-- A key between brackets, or between double brackets. -/
def readStatement? : Reader (Statement Value)
  | '[' :: '[' :: r => do
    let (key, r) ← key? (dropBlanks r)
    match dropBlanks r with
    | ']' :: ']' :: r => some (.element key, r)
    | _ => none
  | '[' :: r => do
    let (key, r) ← key? (dropBlanks r)
    match dropBlanks r with
    | ']' :: r => some (.table key, r)
    | _ => none
  | cs => do
    let ((key, v), r) ← readAssignment? (some ∘ dropBlanks) (readValue? maximalDepth) cs
    some (.assign key v, r)

/-- One statement a line, up to the end of the text. -/
def readStatements? : (rounds : Nat) → List Char → Option (List (Statement Value))
  | 0, _ => none
  | rounds + 1, cs => do
    match ← skip? false cs with
    | [] => some []
    | cs => do
      let (s, r) ← readStatement? cs
      let r ← endLine? false r
      let ss ← readStatements? rounds r
      some (s :: ss)

/-- A mark of the byte order at the front of a text is left out. -/
def dropMark : List Char → List Char
  | '\ufeff' :: r => r
  | cs => cs

/-- The statements of a text. -/
def statements? (cs : List Char) : Option (List (Statement Value)) :=
  let cs := dropMark cs
  readStatements? (cs.length + 1) cs

/-- The table that a text describes. -/
def Entries.ofText? (s : String) : Option Entries := do
  Entries.ofStatements? (← statements? s.toList)

end ArmServo.Toml
