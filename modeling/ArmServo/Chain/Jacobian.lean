import ArmServo.Chain.Basic
import ArmServo.Geometry.Axes

/-!
# Poses along a chain and the Jacobian of the tip

The pose of a frame is the product of the placements and joint motions before it. Joint positions
are listed in the order of the moving joints; the number of positions has to match.

The Jacobian has one column per moving joint: the velocity of the tip, in the base frame, for unit
speed of that joint. A revolute joint about `z` through `o` gives `(z × (p - o), z)`, a prismatic joint
along `z` gives `(z, 0)`. The columns are written into a buffer of the right width, front to back.
-/

namespace ArmServo.Chain

variable {α : Type} [Scalar α]

/-- The pose reached from `t` over the given segments. A missing position counts as zero. -/
def walk (t : Pose α) : List (Segment α) → List α → Pose α
  | [], _ => t
  | s :: rest, q =>
    if s.isActuated then walk (t * s.origin * s.jointTransform (q.headD 0)) rest q.tail
    else walk (t * s.origin * s.jointTransform 0) rest q

/-- The pose of the frame at the given place. -/
def poseAt (c : Chain α) (q : List α) (index : Nat) : Pose α :=
  walk .one (c.segments.take index) q

def checkDimension (c : Chain α) (n : Nat) : Except (ChainError α) Unit :=
  if n = c.dof then pure () else throw (.dimensionMismatch c.dof n)

/-- The pose of a named frame in the base frame. -/
def pose? (c : Chain α) (q : List α) (frame : String) : Except (ChainError α) (Pose α) := do
  c.checkDimension q.length
  match c.frameIndex? frame with
  | some i => pure (c.poseAt q i)
  | none => throw (.frameNotFound frame)

/-- The rotation of a named frame in the base frame. -/
def rotation? (c : Chain α) (q : List α) (frame : String) : Except (ChainError α) (Rotation α) :=
  Pose.rotation <$> c.pose? q frame

def tipPose? (c : Chain α) (q : List α) : Except (ChainError α) (Pose α) := do
  c.checkDimension q.length
  pure (c.poseAt q c.segments.length)

/-! ## the Jacobian -/

/-- Columns of zeros, one per moving joint. -/
def jacobianBuffer (c : Chain α) : List (Axes α) := List.replicate c.dof .zero

/-- Walks along the segments from `t`, writing one column into `out` for every moving joint and
leaving the columns beyond them alone. -/
def writeColumns (tip : Vec3 α) (t : Pose α) :
    List (Segment α) → List α → List (Axes α) → List (Axes α)
  | [], _, out => out
  | s :: rest, q, out =>
    let placed := t * s.origin
    let z := placed.rotation.apply s.axis
    match s.kind with
    | .fixed => writeColumns tip (placed * s.jointTransform 0) rest q out
    | .revolute =>
      .ofParts (z.cross (tip - placed.displacement)) z ::
        writeColumns tip (placed * s.jointTransform (q.headD 0)) rest q.tail out.tail
    | .prismatic =>
      .ofParts z .zero ::
        writeColumns tip (placed * s.jointTransform (q.headD 0)) rest q.tail out.tail

/-- Writes the Jacobian at `q` into a buffer. Both lengths are tested before anything is written, and
the buffer is there also after a refusal. -/
def writeJacobian (c : Chain α) (q : List α) :
    ExceptT (ChainError α) (StateM (List (Axes α))) Unit := do
  c.checkDimension q.length
  c.checkDimension (← get).length
  let tip := (c.poseAt q c.segments.length).displacement
  modify (writeColumns tip .one c.segments q)

/-- The Jacobian at `q`, written into `out`; refused if the number of positions or the width of
`out` is wrong. -/
def jacobian? (c : Chain α) (q : List α) (out : List (Axes α)) :
    Except (ChainError α) (List (Axes α)) :=
  match (c.writeJacobian q).run out with
  | (.ok _, columns) => pure columns
  | (.error e, _) => throw e

end ArmServo.Chain
