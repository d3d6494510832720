import ArmServo.Hardware.Bus
import ArmServo.Period

/-!
# A bench of simulated joints

The joints of a bench have names, which may repeat; a name always means the joint that was added
first under it. A bench keeps the last command of every joint and counts the commands. `Bench.step`
plays an ideal servo: every joint that has a command follows it exactly.
-/

namespace ArmServo

structure BenchJoint (α : Type) where
  name : String
  position : α
  velocity : α
  /-- The last command, if there was one. -/
  command : Option α
  /-- The number of commands so far, not bounded by a machine word. -/
  writes : Nat
deriving BEq, DecidableEq, Repr, Inhabited

/-- The joints in the order in which they were added. -/
structure Bench (α : Type) where
  joints : List (BenchJoint α)
deriving BEq, DecidableEq, Repr, Inhabited

/-- A joint of a bench by its place and the name under which it was found. -/
structure BenchHandle where
  name : String
  index : Nat
deriving BEq, DecidableEq, Repr, Inhabited

namespace BenchJoint

variable {α : Type} [Scalar α]

/-- Follows the last command for `dt` seconds: a position is reached at once, at the average
velocity over the step; a velocity is held and integrated. -/
def follow (kind : CommandKind) (dt : α) (j : BenchJoint α) : BenchJoint α :=
  match j.command with
  | none => j
  | some c =>
    match kind with
    | .position =>
      { j with position := c, velocity := if 0 < dt then (c - j.position) / dt else j.velocity }
    | .velocity => { j with position := j.position + c * dt, velocity := c }

end BenchJoint

namespace Bench

variable {α : Type}

def empty : Bench α := ⟨[]⟩

/-- The place of the first joint of that name. -/
def index? (b : Bench α) (name : String) : Option Nat := b.joints.findIdx? (·.name == name)

def joint? (b : Bench α) (name : String) : Option (BenchJoint α) :=
  b.joints.find? (·.name == name)

/-- All measured positions. -/
def positions (b : Bench α) : List α := b.joints.map BenchJoint.position

/-- The number of commands that all joints have received. -/
def totalWrites (b : Bench α) : Nat := b.joints.foldr (fun j n => j.writes + n) 0

def modifyAt (b : Bench α) (index : Nat) (f : BenchJoint α → BenchJoint α) : Bench α :=
  ⟨b.joints.modify index f⟩

/-- Sets what is measured at a joint and tells whether there is one of that name; nothing happens if
there is none. -/
def measure (b : Bench α) (name : String) (position velocity : α) : Bool × Bench α :=
  match b.index? name with
  | some i => (true, b.modifyAt i fun j => { j with position := position, velocity := velocity })
  | none => (false, b)

def setMeasured (b : Bench α) (name : String) (position velocity : α) : Bench α :=
  (b.measure name position velocity).2

def handle? (b : Bench α) (name : String) : Option BenchHandle :=
  (b.index? name).map (⟨name, ·⟩)

def setCommand (b : Bench α) (h : BenchHandle) (x : α) : Bench α :=
  b.modifyAt h.index fun j => { j with command := some x, writes := j.writes + 1 }

variable [Scalar α]

/-- Adds a joint at rest that has no command yet. -/
def add (b : Bench α) (name : String) (position : α) : Bench α :=
  ⟨b.joints ++ [⟨name, position, 0, none, 0⟩]⟩

def ofList (joints : List (String × α)) : Bench α :=
  joints.foldl (fun b j => b.add j.1 j.2) empty

/-- Lets every joint that has a command follow it for one period. -/
def step (b : Bench α) (kind : CommandKind) (period : Period) : Bench α :=
  ⟨b.joints.map (BenchJoint.follow kind period.seconds)⟩

instance : JointBus (Bench α) BenchHandle α where
  handle? := handle?
  name := BenchHandle.name
  position b h := (b.joints[h.index]?.map BenchJoint.position).getD 0
  velocity b h := (b.joints[h.index]?.map BenchJoint.velocity).getD 0
  setCommand := setCommand

end Bench

end ArmServo
