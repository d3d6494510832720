import ArmServo.Scalar

/-!
# Joint motion and commands

Positions and velocities of the joints of a chain, in chain order, and the two kinds of command
that can be made of them.
-/

namespace ArmServo

structure Motion (α : Type) where
  positions : List α
  velocities : List α
deriving BEq, DecidableEq, Repr, Inhabited

/-- What a joint is told: where to be, or how fast to move. -/
inductive CommandKind where
  | position
  | velocity
deriving DecidableEq, Repr, Inhabited

namespace CommandKind

def name : CommandKind → String
  | position => "position"
  | velocity => "velocity"

end CommandKind

namespace Motion

variable {α : Type}

/-- `n` joints at rest at zero. -/
def zeros [Scalar α] (n : Nat) : Motion α := ⟨List.replicate n 0, List.replicate n 0⟩

def length (m : Motion α) : Nat := m.positions.length

def isEmpty (m : Motion α) : Bool := m.positions.isEmpty

/-- The values that a command of the given kind carries, one per joint. -/
def commands (m : Motion α) : CommandKind → List α
  | .position => m.positions
  | .velocity => m.velocities

end Motion

end ArmServo
