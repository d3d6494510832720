import ArmServo.Chain.Segment
import ArmServo.Decimal.Text

/-!
# Kinematic chains

A chain runs from a base frame over its segments to the link of the last one. `Chain.ofSegments?`
accepts a description or names its first fault; `Chain.between?` cuts out the run between two
frames. Frames are counted from zero at the base. What can be wrong is data, whose wording is in
`ChainError.message` alone.
-/

namespace ArmServo

inductive ChainError (α : Type) where
  | frameNotFound (frame : String)
  | duplicateFrame (frame : String)
  | duplicateJoint (joint : String)
  | emptyChain
  | invalidLimits (joint : String) (lower upper : α)
  | invalidAxis (joint : String)
  | dimensionMismatch (expected actual : Nat)
  | tipBeforeBase (base tip : String)
deriving BEq, DecidableEq, Repr

def ChainError.message : ChainError Float → String
  | .frameNotFound frame => "Frame '" ++ frame ++ "' is not part of the kinematic chain"
  | .duplicateFrame frame => "Duplicate frame name '" ++ frame ++ "' in kinematic chain"
  | .duplicateJoint joint => "Duplicate actuated joint name '" ++ joint ++ "' in kinematic chain"
  | .emptyChain => "Kinematic chain has no segments"
  | .invalidLimits joint lower upper =>
    "Invalid limits for joint '" ++ joint ++ "': lower " ++ display lower ++ " > upper " ++
      display upper
  | .invalidAxis joint => "Joint '" ++ joint ++ "' has a zero-length axis"
  | .dimensionMismatch expected actual =>
    "Dimension mismatch: expected " ++ toString expected ++ ", got " ++ toString actual
  | .tipBeforeBase base tip =>
    "Tip frame '" ++ tip ++ "' does not come after base frame '" ++ base ++ "'"

structure Chain (α : Type) where
  base : String
  segments : List (Segment α)
deriving BEq, DecidableEq, Repr, Inhabited

namespace Chain

variable {α : Type}

/-! ## what a chain holds -/

/-- All frames, the base first. -/
def frames (c : Chain α) : List String := c.base :: c.segments.map Segment.link

/-- The last frame. -/
def tip (c : Chain α) : String := (c.segments.getLast?.map Segment.link).getD c.base

/-- The segments whose joints move, in order. -/
def actuated (c : Chain α) : List (Segment α) := c.segments.filter Segment.isActuated

/-- The number of moving joints, counted whenever it is asked for. -/
def dof (c : Chain α) : Nat := c.actuated.length

def jointNames (c : Chain α) : List String := c.actuated.map Segment.joint

def limits (c : Chain α) : List (Limits α) := c.actuated.map Segment.limits

/-- The place of a frame, zero for the base. -/
def frameIndex? (c : Chain α) (frame : String) : Option Nat := c.frames.findIdx? (· == frame)

/-- The base frame, then joint, kind and link of every segment. -/
def text (c : Chain α) : String :=
  c.base ++ String.join (c.segments.map fun s =>
    " -[" ++ s.joint ++ ":" ++ s.kind.name ++ "]-> " ++ s.link)

/-! ## accepting a description -/

variable [Scalar α]

/-- Axes shorter than this count as zero. -/
def minimalAxis : α := Scalar.negPowTen 9

/-- The segment with an axis of length one, if its axis is long enough and its limits are valid. -/
def normalized? (s : Segment α) : Except (ChainError α) (Segment α) :=
  let norm := s.axis.norm
  if norm < minimalAxis || !Scalar.isFinite norm then throw (.invalidAxis s.joint)
  else match s.limits with
    | .range lower upper =>
      if lower ≤ upper then pure { s with axis := s.axis.divide norm }
      else throw (.invalidLimits s.joint lower upper)
    | .free => pure { s with axis := s.axis.divide norm }

/-- Accepts segments one after the other, given the frames and the joints that are already taken.
Of a segment first the frame is tested, then, if its joint moves, the joint, the axis and the
limits. -/
def accept (frames joints : List String) :
    List (Segment α) → Except (ChainError α) (List (Segment α))
  | [] => pure []
  | s :: rest => do
    if frames.contains s.link then throw (.duplicateFrame s.link)
    if s.isActuated then
      if joints.contains s.joint then throw (.duplicateJoint s.joint)
      let t ← normalized? s
      let ts ← accept (s.link :: frames) (s.joint :: joints) rest
      pure (t :: ts)
    else
      let ts ← accept (s.link :: frames) joints rest
      pure (s :: ts)

/-- The chain of a description, with axes of length one, or the first fault. -/
def ofSegments? (base : String) (segments : List (Segment α)) :
    Except (ChainError α) (Chain α) :=
  if segments.isEmpty then throw .emptyChain
  else return ⟨base, ← accept [base] [] segments⟩

/-! ## runs of a chain -/

/-- The run from one frame to a later one. -/
def between? (c : Chain α) (base tip : String) : Except (ChainError α) (Chain α) :=
  match c.frameIndex? base, c.frameIndex? tip with
  | none, _ => throw (.frameNotFound base)
  | some _, none => throw (.frameNotFound tip)
  | some i, some j =>
    if j = i then throw .emptyChain
    else if j < i then throw (.tipBeforeBase base tip)
    else pure ⟨base, (c.segments.drop i).take (j - i)⟩

end Chain

end ArmServo
