import ArmServo.Chain.Jacobian
import ArmServo.Error
import ArmServo.Hardware.Bus
import ArmServo.Linear.Orthogonal
import ArmServo.Linear.Symmetric

/-!
# The motion solver

Keeps a simulated motion of the joints of a chain. One step turns a Cartesian velocity of the tip
into joint velocities, integrates them over the period and clamps every joint to its limits; a
clamped joint reports the velocity that takes it exactly to its limit.

For Jacobian columns `J`, damping `λ` and a Cartesian velocity `ẋ` the joint velocities `Jᵀ y` with
`(J Jᵀ + λ² I) y = ẋ` are the least-norm minimisers of `‖J v - ẋ‖² + λ² ‖v‖²`. Where the matrix is
not positive definite, which takes a damping of zero and a singular `J Jᵀ`, `y` is the least-norm
solution of the least-squares problem. Directions in which the joints hardly move the tip are left
out: eigenvalues of `J Jᵀ` up to the tolerance count as zero.
-/

namespace ArmServo

/-! ## from Cartesian to joint velocity -/

namespace TaskSpace

/-- A way to find the `y` above from Jacobian columns, damping and Cartesian velocity. -/
abbrev Method (α : Type) :=
  (columns : List (Axes α)) → (damping : α) → (velocity : Axes α) → Axes α

variable {α : Type} [Scalar α]

/-- Eigenvalues of `J Jᵀ` up to this one count as zero. -/
def tolerance : α := Scalar.negPowTen 12

/-- `J Jᵀ + λ² I`, column by column from the left. -/
def matrix (columns : List (Axes α)) (damping : α) : SymMatrix α 6 :=
  let squares := columns.foldl (fun a c => SymMatrix.addOuter a (.ofAxes c)) (SymMatrix.zero 6)
  squares.addScalar (damping * damping)

/-- The directions in which the joints can move the tip. -/
def reach (columns : List (Axes α)) : List (Vec α 6) :=
  Vec.principal tolerance (columns.map .ofAxes)

/-- The `y` above; zero if there is none. -/
def solve : Method α := fun columns damping velocity =>
  let a := matrix columns damping
  let b := Vec.ofAxes velocity
  match a.solve? b with
  | some y => y.toAxes
  | none => ((a.solveWithin? (reach columns) b).getD (.zero 6)).toAxes

end TaskSpace

/-! ## the solver -/

structure Solver (α : Type) where
  chain : Chain α
  limits : List (Limits α)
  damping : α
  /-- The Jacobian of the last step, as wide as the chain has moving joints. -/
  jacobian : List (Axes α)
  motion : Motion α
deriving BEq, DecidableEq, Repr, Inhabited

namespace Solver

variable {α : Type} [Scalar α]

def defaultDamping : α := Scalar.negPowTen 3

/-- A solver at rest at zero, for a finite damping that is not negative. -/
def ofChain? (chain : Chain α) (damping : α) : Except (ControlError α) (Solver α) :=
  if !Scalar.isFinite damping || damping < 0 then
    throw (.configuration (.invalidDamping damping))
  else pure {
    chain := chain
    limits := chain.limits
    damping := damping
    jacobian := chain.jacobianBuffer
    motion := .zeros chain.dof }

def dof (s : Solver α) : Nat := s.motion.length

/-- Takes over measured positions and velocities, one pair per joint. -/
def start? (s : Solver α) (measured : List (α × α)) : Except (ControlError α) (Solver α) :=
  if measured.length = s.dof then
    pure { s with motion := ⟨measured.map Prod.fst, measured.map Prod.snd⟩ }
  else throw (.kinematics (.dimensionMismatch s.dof measured.length))

/-- One joint over a step of `dt` seconds: its new position and the velocity it reports. -/
def moveJoint? (limits : Limits α) (dt previous velocity : α) : Option (α × α) :=
  let integrated := previous + velocity * dt
  match limits.clamp? integrated with
  | none => none
  | some clamped =>
    some (clamped, if clamped == integrated then velocity else (clamped - previous) / dt)

/-- All joints over a step, from their limits, old positions and joint velocities. -/
def moveJoints? (dt : α) : List (Limits α) → List α → List α → Option (Motion α)
  | l :: ls, q :: qs, u :: us =>
    match moveJoint? l dt q u, moveJoints? dt ls qs us with
    | some (x, v), some m => some ⟨x :: m.positions, v :: m.velocities⟩
    | _, _ => none
  | _, _, _ => some ⟨[], []⟩

/-! ## a step in place -/

/-- What is done with a solver in place: it ends with a result or a failure, and in both cases it
leaves the solver in some state. -/
abbrev Action (α β : Type) := ExceptT (Failure α) (StateM (Solver α)) β

/-- Writes the Jacobian at the present positions into its buffer. -/
def refreshJacobian : Action α Unit := do
  let s ← get
  let (answer, buffer) := (s.chain.writeJacobian s.motion.positions).run s.jacobian
  set { s with jacobian := buffer }
  if let .error e := answer then throw (.refused (.kinematics e))

/-- Moves all joints for `dt` seconds towards a Cartesian velocity, by the Jacobian in the buffer.
-/
def moveJoints (dt : α) (velocity : Axes α) (solve : TaskSpace.Method α) : Action α Unit := do
  let s ← get
  let y := solve s.jacobian s.damping velocity
  match moveJoints? dt s.limits s.motion.positions (s.jacobian.map (·.dot y)) with
  | some motion => set { s with motion := motion }
  | none => throw .stopped

/-- Moves on by one period towards the given Cartesian velocity. The Jacobian is that of the old
positions. -/
def step (period : Period) (velocity : Axes α)
    (solve : TaskSpace.Method α := TaskSpace.solve) : Action α Unit := do
  if period.isZero then throw (.refused (.invalidPeriod period))
  refreshJacobian
  moveJoints period.seconds velocity solve

/-- The solver after a step, if the step succeeds. -/
def step? (s : Solver α) (period : Period) (velocity : Axes α)
    (solve : TaskSpace.Method α := TaskSpace.solve) : Except (Failure α) (Solver α) :=
  match (step period velocity solve).run s with
  | (.ok _, s) => pure s
  | (.error f, _) => throw f

end Solver

end ArmServo
