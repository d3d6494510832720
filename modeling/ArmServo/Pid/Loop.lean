import ArmServo.Scalar

/-!
# One PID loop

The output is `p e + i ∫e + d e'`. The integral is kept within plus and minus its bound, and the
derivative is the difference to the last error over the time step; the last error starts at zero.
-/

namespace ArmServo.Pid

/-- Proportional, integral and derivative gain, and the bound of the integral. -/
structure Gains (α : Type) where
  p : α
  i : α
  d : α
  iClamp : α
deriving BEq, DecidableEq, Repr, Inhabited

namespace Gains

variable {α : Type}

def toList (g : Gains α) : List α := [g.p, g.i, g.d, g.iClamp]

variable [Scalar α]

def zero : Gains α := ⟨0, 0, 0, 0⟩

def isFinite (g : Gains α) : Bool := g.toList.all Scalar.isFinite

end Gains

/-- A loop with its memory. -/
structure Loop (α : Type) where
  gains : Gains α
  integral : α
  lastError : α
deriving BEq, DecidableEq, Repr, Inhabited

namespace Loop

variable {α : Type} [Scalar α]

/-- A loop that remembers nothing. -/
def ofGains (g : Gains α) : Loop α := ⟨g, 0, 0⟩

/-- The output for an error over a time step, and the loop after it. There is none if the bound of
the integral is undefined. -/
def update? (s : Loop α) (error dt : α) : Option (α × Loop α) :=
  let bound := Scalar.abs s.gains.iClamp
  match clampBetween? (-bound) bound (s.integral + error * dt) with
  | none => none
  | some integral =>
    let derivative := (error - s.lastError) / dt
    some (s.gains.p * error + s.gains.i * integral + s.gains.d * derivative,
      { s with integral := integral, lastError := error })

/-- Forgets the integral and the last error. -/
def reset (s : Loop α) : Loop α := { s with integral := 0, lastError := 0 }

/-- Forgets the last error only. -/
def timeJump (s : Loop α) : Loop α := { s with lastError := 0 }

def setGains (s : Loop α) (g : Gains α) : Loop α := { s with gains := g }

end Loop

end ArmServo.Pid
