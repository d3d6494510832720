/-!
# Values and statements of a configuration text

A configuration text is TOML: a list of statements, each of which assigns a value to a key or opens
a table. Tables remember how they came about, because that decides which later statements may add
to them.
-/

namespace ArmServo.Toml

/-- How a table came about. -/
inductive Origin where
  /-- by a header of its own -/
  | header
  /-- on the way of a header to a table inside it -/
  | implied
  /-- on the way of a dotted key -/
  | dotted
  /-- between braces -/
  | inline
deriving DecidableEq, Repr

inductive Value where
  | text (s : String)
  | whole (n : Int)
  | number (x : Float)
  | truth (b : Bool)
  /-- A date, a time of day, or both. -/
  | moment
  /-- A number that is too large to hold, or whose digits write none. It is refused only where it is
  looked at. -/
  | unreadable
  /-- `growing` tells an array of tables made by headers. -/
  | array (growing : Bool) (items : List Value)
  | table (origin : Origin) (entries : List (String × Value))

/-- The content of a table, in the order in which it was assigned. Keys do not repeat. -/
abbrev Entries := List (String × Value)

/-- A key with the names of the tables that lead to it. -/
structure Key where
  path : List String
  name : String
deriving DecidableEq, Repr

/-- The key one table further in. -/
def Key.within (table : String) (k : Key) : Key := ⟨table :: k.path, k.name⟩

inductive Statement (β : Type) where
  | assign (key : Key) (value : β)
  /-- Opens a table. -/
  | table (key : Key)
  /-- Opens a new table at the end of an array of tables. -/
  | element (key : Key)

/-- The same statement about other values. -/
def Statement.map {β γ : Type} (f : β → γ) : Statement β → Statement γ
  | assign key value => assign key (f value)
  | table key => table key
  | element key => element key

end ArmServo.Toml
