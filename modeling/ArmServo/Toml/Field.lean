import ArmServo.Toml.Table

/-!
# Values as records

A record has named fields in a fixed order. It is read from a table by its keys, or from an array by
place; keys that are no field and items beyond the last field are passed over. A date or a time in
place of a record has none of its fields.
-/

namespace ArmServo.Toml

mutual

/-- Every number in the value can be read. -/
def Value.isReadable : Value → Bool
  | .unreadable => false
  | .array _ items => areReadable items
  | .table _ entries => entriesAreReadable entries
  | .text _ | .whole _ | .number _ | .truth _ | .moment => true

def areReadable : List Value → Bool
  | [] => true
  | v :: vs => v.isReadable && areReadable vs

def entriesAreReadable : List (String × Value) → Bool
  | [] => true
  | (_, v) :: es => v.isReadable && entriesAreReadable es

end

/-- The fields that are there. -/
abbrev Fields := String → Option Value

/-- The fields of a record with the given names. What a table holds besides has to be readable. -/
def Value.fields? (names : List String) : Value → Option Fields
  | .table _ entries =>
    if entries.all fun e => names.contains e.1 || e.2.isReadable then
      some fun name => Entries.find? name entries
    else none
  | .array _ items => some fun name => (names.zip items).lookup name
  | .moment => some fun _ => none
  | _ => none

namespace Fields

variable {β : Type}

/-- A field that may be missing. -/
def optional? (fields : Fields) (name : String) (read : Value → Option β) : Option (Option β) :=
  match fields name with
  | none => some none
  | some v => (read v).map some

/-- A field with a value that stands for it where it is missing. -/
def withDefault? (fields : Fields) (name : String) (default : β) (read : Value → Option β) :
    Option β :=
  match fields name with
  | none => some default
  | some v => read v

/-- A field that has to be there. -/
def required? (fields : Fields) (name : String) (read : Value → Option β) : Option β :=
  match fields name with
  | none => none
  | some v => read v

end Fields

namespace Value

def text? : Value → Option String
  | .text s => some s
  | _ => none

/-- A number; a whole number counts if it fits into 64 bits, with or without a sign. -/
def number? : Value → Option Float
  | .number x => some x
  | .whole n =>
    if n < -(Nat.pow 2 63 : Nat) ∨ (Nat.pow 2 64 : Nat) ≤ n then none else some (Float.ofInt n)
  | _ => none

def list? {β : Type} (read : Value → Option β) : Value → Option (List β)
  | .array _ items => items.mapM read
  | _ => none

/-- The first three items of an array. -/
def triple? {β : Type} (read : Value → Option β) : Value → Option (β × β × β)
  | .array _ (a :: b :: c :: _) => do some (← read a, ← read b, ← read c)
  | _ => none

def isEmpty : Value → Bool
  | .array _ [] => true
  | .table _ [] => true
  | _ => false

/-- One of several names, as a text or as the only key of a table, over nothing. -/
def choice? {β : Type} (choices : List (String × β)) : Value → Option β
  | .text s => choices.lookup s
  | .table _ [(name, v)] => if v.isEmpty then choices.lookup name else none
  | _ => none

end Value

end ArmServo.Toml
