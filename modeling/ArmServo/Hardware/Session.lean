import ArmServo.Hardware.Bench

/-!
# Work at a bench

Joints are added to a bench, handles are asked for and kept, commands come through any handle that
has been kept, measurements are set and the servo takes its steps, all of it in any order. A session
is a bench with the handles that have been found at it so far.
-/

namespace ArmServo

/-- What is done at a bench. -/
inductive BenchCall (α : Type)
  | add (name : String) (position : α)
  /-- Asks for a handle, which is kept if there is one. -/
  | find (name : String)
  /-- A command through a kept handle, the first one being number zero; nothing is done if no such
  handle has been found. -/
  | command (handle : Nat) (x : α)
  | measure (name : String) (position velocity : α)
  | step (kind : CommandKind) (period : Period)
deriving DecidableEq, Repr

/-- A bench with the handles that have been found, the first one in front. -/
structure BenchSession (α : Type) where
  bench : Bench α
  handles : List BenchHandle
deriving BEq, DecidableEq, Repr

/-- The joint that is added, if one is, with its position. -/
def BenchCall.added? {α : Type} : BenchCall α → Option (String × α)
  | .add name position => some (name, position)
  | _ => none

namespace BenchSession

variable {α : Type}

/-- An empty bench, and no handle. -/
def start : BenchSession α := ⟨.empty, []⟩

/-- The command that is sent, if one is, with its handle. -/
def sent? (s : BenchSession α) : BenchCall α → Option (BenchHandle × α)
  | .command k x => s.handles[k]?.map (·, x)
  | _ => none

variable [Scalar α]

def next (s : BenchSession α) : BenchCall α → BenchSession α
  | .add name position => { s with bench := s.bench.add name position }
  | .find name => { s with handles := s.handles ++ (s.bench.handle? name).toList }
  | .command k x =>
    match s.handles[k]? with
    | some h => { s with bench := s.bench.setCommand h x }
    | none => s
  | .measure name position velocity =>
    { s with bench := s.bench.setMeasured name position velocity }
  | .step kind period => { s with bench := s.bench.step kind period }

def after (s : BenchSession α) (calls : List (BenchCall α)) : BenchSession α := calls.foldl next s

/-- All commands that are sent, with their handles, the first one in front. -/
def log (s : BenchSession α) : List (BenchCall α) → List (BenchHandle × α)
  | [] => []
  | call :: calls => (s.sent? call).toList ++ (s.next call).log calls

end BenchSession

end ArmServo
