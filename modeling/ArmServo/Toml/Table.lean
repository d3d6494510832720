import ArmServo.Toml.Value

/-!
# Building tables

Statements fill a table step by step. A key is assigned once; a table is opened once, and only what
lies on the way of other headers may be opened later; a dotted key does not reach into tables that
were opened by a header, and nothing reaches into what stands between braces.
-/

namespace ArmServo.Toml

namespace Entries

def find? (key : String) (entries : Entries) : Option Value := entries.lookup key

def replace (key : String) (v : Value) (entries : Entries) : Entries :=
  entries.map fun e => if e.1 == key then (key, v) else e

/-- Changes by `f` the table at the end of a path, which is told how that table came about. Tables
that are missing on the way come about as `origin`; the last table of an array stands for the
array. -/
def extend (origin : Origin) (f : Origin → Entries → Option Entries) :
    List String → Origin → Entries → Option Entries
  | [], here, entries => f here entries
  | key :: path, _, entries =>
    match find? key entries with
    | none => do
      let inner ← extend origin f path origin []
      some (entries ++ [(key, .table origin inner)])
    | some (.table own inner) =>
      if own = .inline ∨ (origin = .dotted ∧ own = .header) then none
      else do
        let inner ← extend origin f path own inner
        some (replace key (.table own inner) entries)
    | some (.array true items) =>
      match items.getLast? with
      | some (.table own inner) => do
        let inner ← extend origin f path own inner
        some (replace key (.array true (items.dropLast ++ [.table own inner])) entries)
      | _ => none
    | some _ => none

/-- Assigns a value to a key that has none. A dotted key assigns into tables of dotted keys only. -/
def assign (entries : Entries) (key : Key) (v : Value) : Option Entries :=
  extend .dotted (fun here inner =>
    if decide (here = .dotted) == key.path.isEmpty then none
    else match find? key.name inner with
      | none => some (inner ++ [(key.name, v)])
      | some _ => none) key.path .header entries

def assignAll (entries : Entries) (assignments : List (Key × Value)) : Option Entries :=
  assignments.foldlM (fun es a => assign es a.1 a.2) entries

/-- Opens a table and assigns into it. -/
def openTable (entries : Entries) (key : Key) (assignments : List (Key × Value)) :
    Option Entries :=
  extend .implied (fun _ outer =>
    match find? key.name outer with
    | none => do
      let inner ← assignAll [] assignments
      some (outer ++ [(key.name, .table .header inner)])
    | some (.table .implied inner) => do
      let inner ← assignAll inner assignments
      some (replace key.name (.table .header inner) outer)
    | some _ => none) key.path .header entries

/-- Opens a new table at the end of an array of tables and assigns into it. -/
def openElement (entries : Entries) (key : Key) (assignments : List (Key × Value)) :
    Option Entries := do
  let element ← assignAll [] assignments
  extend .implied (fun _ outer =>
    match find? key.name outer with
    | none => some (outer ++ [(key.name, .array true [.table .header element])])
    | some (.array true items) =>
      some (replace key.name (.array true (items ++ [.table .header element])) outer)
    | some _ => none) key.path .header entries

end Entries

/-- A header and the assignments up to the next one. -/
structure Block where
  isElement : Bool
  key : Key
  assignments : List (Key × Value)

/-- The assignments before the first header, and the blocks of the headers. -/
def blocks : List (Statement Value) → List (Key × Value) × List Block
  | [] => ([], [])
  | .assign key v :: rest => ((key, v) :: (blocks rest).1, (blocks rest).2)
  | .table key :: rest => ([], ⟨false, key, (blocks rest).1⟩ :: (blocks rest).2)
  | .element key :: rest => ([], ⟨true, key, (blocks rest).1⟩ :: (blocks rest).2)

def Entries.add (entries : Entries) (b : Block) : Option Entries :=
  if b.isElement then entries.openElement b.key b.assignments
  else entries.openTable b.key b.assignments

/-- The table that statements describe. -/
def Entries.ofStatements? (statements : List (Statement Value)) : Option Entries := do
  let root ← Entries.assignAll [] (blocks statements).1
  (blocks statements).2.foldlM Entries.add root

end ArmServo.Toml
