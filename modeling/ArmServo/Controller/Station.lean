import ArmServo.Controller.Basic
import ArmServo.Hardware.Bench

/-!
# Controllers at work

A station is a controller with its hardware. Its operations change it and may fail; what a failed
operation has changed until then stays changed, so that it is a statement, and not a matter of
types, that it has changed nothing. Looking for handles is the exception: hardware is assumed to be
the same after a look-up, as it is for a bench.
-/

namespace ArmServo

/-- A controller with its hardware. -/
structure Station (H J α : Type) where
  controller : Controller α J
  hardware : H
deriving BEq, DecidableEq, Repr

/-- What is done with a station: it ends with a result or a failure, in both cases in some state. -/
abbrev Operation (H J α β : Type) := ExceptT (Failure α) (StateM (Station H J α)) β

namespace Operation

variable {H J α β : Type}

def refuse (e : ControlError α) : Operation H J α β := throw (.refused e)

/-- Takes over a result that is found without a station. -/
def ofResult : Except (ControlError α) β → Operation H J α β
  | .ok x => pure x
  | .error e => refuse e

/-- Takes over a result that may also be a stop. -/
def ofOutcome : Except (Failure α) β → Operation H J α β
  | .ok x => pure x
  | .error f => throw f

/-- The core of an initialized controller. -/
def core : Operation H J α (Core α J) := do
  match (← get).controller.core with
  | some core => pure core
  | none => refuse .notInitialized

def setCore (core : Core α J) : Operation H J α Unit :=
  modify fun s => { s with controller := { s.controller with core := some core } }

/-- Changes the core of an initialized controller. -/
def changeCore (f : Core α J → Core α J) : Operation H J α Unit := do
  setCore (f (← core))

def setHardware (h : H) : Operation H J α Unit := modify fun s => { s with hardware := h }

/-- Does something with the solver of an initialized controller, in place. -/
def onSolver (a : Solver.Action α β) : Operation H J α β := do
  let core ← core
  let done := a.run core.solver
  setCore { core with solver := done.2 }
  ofOutcome done.1

end Operation

namespace Station

open Operation

variable {H J α : Type}

section Lifecycle

variable [Scalar α] [JointBus H J α]

/-- A handle of every joint, or the first joint without one. -/
def findHandles? (h : H) (joints : List String) : Except (ControlError α) (List J) :=
  joints.mapM fun joint =>
    match JointBus.handle? h joint with
    | some j => pure j
    | none => throw (.unknownHardwareHandle joint)

/-- The core for a configuration, running and at rest at zero. -/
def buildCore? (writes : CommandKind) (h : H) (c : Config α) :
    Except (ControlError α) (Core α J) := do
  c.validate?
  let configured ← c.commandKind?
  if configured ≠ writes then throw (.commandTypeMismatch writes configured)
  let chain ← c.chain?
  let handles ← findHandles? h c.joints
  let solver ← Solver.ofChain? chain c.damping
  pure ⟨.running, .ofGains c.gains, solver, handles, .zero⟩

/-- Takes up a configuration. A controller that has one keeps it. -/
def configure (c : Config α) : Operation H J α Unit := do
  let s ← get
  match s.controller.core with
  | some _ => pure ()
  | none => do
    let core ← ofResult (buildCore? s.controller.writes s.hardware c)
    setCore core

/-- Runs from the measured state of the joints on. -/
def start : Operation H J α Unit := do
  let core ← Operation.core
  let h := (← get).hardware
  let measured := core.handles.map fun j => (JointBus.position h j, JointBus.velocity h j)
  let solver ← ofResult (core.solver.start? measured)
  setCore { core with mode := .running, solver := solver }

end Lifecycle

/-- Stops computing and writing; everything stays as it is. -/
def pause : Operation H J α Unit := changeCore fun core => { core with mode := .paused }

/-- Goes on from the simulated state, not from the measured one. -/
def resume : Operation H J α Unit := changeCore fun core => { core with mode := .running }

section Cycle

variable [Scalar α]

/-- One period of a running controller. The loops are stepped on a copy, which takes their place
when everything has succeeded; the solver is moved in place. -/
def advance (error : Axes α) (period : Period)
    (solve : TaskSpace.Method α := TaskSpace.solve) : Operation H J α Unit := do
  let core ← Operation.core
  if period.isZero then refuse (.invalidPeriod period)
  if !error.isFinite then refuse (.nonFinite .cartesianError)
  match core.pid.update? error period with
  | none => throw .stopped
  | some (input, pid) =>
    if !input.isFinite then refuse (.nonFinite .pidOutput)
    onSolver (Solver.step period input solve)
    changeCore fun core => { core with pid := pid, input := input }

/-- Computes joint motion from an error; nothing while paused. -/
def compute (error : Axes α) (period : Period)
    (solve : TaskSpace.Method α := TaskSpace.solve) : Operation H J α Unit := do
  let core ← Operation.core
  match core.mode with
  | .paused => pure ()
  | .running => advance error period solve

/-- Gives every joint its command; nothing while paused. -/
def write [JointBus H J α] : Operation H J α Unit := do
  let core ← Operation.core
  match core.mode with
  | .paused => pure ()
  | .running => do
    let s ← get
    setHardware
      (JointBus.setCommands s.hardware core.handles (core.motion.commands s.controller.writes))

/-- One control period. -/
def tick [JointBus H J α] (error : Axes α) (period : Period)
    (solve : TaskSpace.Method α := TaskSpace.solve) : Operation H J α Unit := do
  compute error period solve
  write

/-- Changes the loops. -/
def changePid (f : Pid.Spatial α → Pid.Spatial α) : Operation H J α Unit :=
  changeCore fun core => { core with pid := f core.pid }

def resetPid : Operation H J α Unit := changePid Pid.Spatial.reset

/-- Notes a gap in time: the loops forget their last errors and keep their integrals. -/
def timeJump : Operation H J α Unit := changePid Pid.Spatial.timeJump

/-- Puts new gains in force. -/
def setGains (g : Pid.SpatialGains α) : Operation H J α Unit := changePid (·.setGains g)

end Cycle

/-! ## the ideal servo -/

/-- Lets the joints of a bench follow their commands for one period, unless the controller is
paused. -/
def follow [Scalar α] (period : Period) (s : Station (Bench α) BenchHandle α) :
    Station (Bench α) BenchHandle α :=
  if s.controller.isPaused then s
  else { s with hardware := s.hardware.step s.controller.writes period }

end Station

end ArmServo
