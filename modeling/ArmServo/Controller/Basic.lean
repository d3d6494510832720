import ArmServo.Config.Basic
import ArmServo.Geometry.Frames

/-!
# Controllers

A controller turns a Cartesian error into joint commands: six PID loops make a velocity of the tip
of it, and a motion solver makes joint motion of that. Before it is initialized it has no core;
after that it runs or is paused, and its core stays.
-/

namespace ArmServo

inductive Mode where
  | running
  | paused
deriving DecidableEq, Repr

/-- What an initialized controller works with. -/
structure Core (α J : Type) where
  mode : Mode
  pid : Pid.Spatial α
  solver : Solver α
  /-- The joints that receive commands, in chain order. -/
  handles : List J
  /-- The last output of the loops. -/
  input : Axes α
deriving BEq, DecidableEq, Repr

structure Controller (α J : Type) where
  /-- The kind of command that the controller writes. -/
  writes : CommandKind
  core : Option (Core α J) := none
deriving BEq, DecidableEq, Repr

/-- How a controller presents itself. -/
inductive ControllerState where
  | uninitialized
  | running
  | paused
deriving DecidableEq, Repr

def ControllerState.name : ControllerState → String
  | uninitialized => "Uninitialized"
  | running => "Running"
  | paused => "Paused"

namespace Core

variable {α J : Type}

def chain (core : Core α J) : Chain α := core.solver.chain

def motion (core : Core α J) : Motion α := core.solver.motion

/-- Simulated joint positions. -/
def positions (core : Core α J) : List α := core.motion.positions

end Core

namespace Controller

variable {α J : Type}

/-- The state is not kept beside the core but read off it. -/
def state (c : Controller α J) : ControllerState :=
  match c.core with
  | none => .uninitialized
  | some core =>
    match core.mode with
    | .running => .running
    | .paused => .paused

def isPaused (c : Controller α J) : Bool := decide (c.state = .paused)

def motion? (c : Controller α J) : Option (Motion α) := c.core.map Core.motion

/-- The last output of the loops. -/
def input? (c : Controller α J) : Option (Axes α) := c.core.map Core.input

def chain? (c : Controller α J) : Option (Chain α) := c.core.map Core.chain

/-- The joints that receive commands, in chain order. -/
def handles (c : Controller α J) : List J := (c.core.map Core.handles).getD []

variable [Scalar α]

/-! ## poses and frames, at the simulated positions -/

def core? (c : Controller α J) : Except (ControlError α) (Core α J) :=
  match c.core with
  | some core => pure core
  | none => throw .notInitialized

def tipPose? (c : Controller α J) : Except (ControlError α) (Pose α) := do
  let core ← c.core?
  (core.chain.tipPose? core.positions).mapError .kinematics

def framePose? (c : Controller α J) (frame : String) : Except (ControlError α) (Pose α) := do
  let core ← c.core?
  (core.chain.pose? core.positions frame).mapError .kinematics

/-- The rotation that takes components in a frame to components in the base frame. -/
def rotationToBase? (c : Controller α J) (frame : String) :
    Except (ControlError α) (Rotation α) := do
  let core ← c.core?
  (core.chain.rotation? core.positions frame).mapError .kinematics

/-- A six-vector that is given in a frame, in the base frame. -/
def expressInBase? (c : Controller α J) (v : Axes α) (frame : String) :
    Except (ControlError α) (Axes α) :=
  return (← c.rotationToBase? frame).rotate v

/-- A six-vector that is given in the base frame, in another frame. -/
def expressInFrame? (c : Controller α J) (v : Axes α) (frame : String) :
    Except (ControlError α) (Axes α) :=
  return (← c.rotationToBase? frame).inverseRotate v

/-- A tensor that is given in a frame, in the base frame. -/
def expressTensorInBase? (c : Controller α J) (k : Tensor α) (frame : String) :
    Except (ControlError α) (Tensor α) :=
  return (← c.rotationToBase? frame).rotateTensor k

end Controller

end ArmServo
