import ArmServo.Geometry.Rotation

/-!
# Segments

A segment carries a frame, its link, from the frame before it: first a fixed placement of the
joint, then the motion of the joint.

A joint moves freely or within a range. A range is only meaningful if its lower end is not above
its upper end; `Limits.clamp?` has no answer for one that is not.
-/

namespace ArmServo

/-! ## limits -/

inductive Limits (α : Type) where
  | free
  | range (lower upper : α)
deriving BEq, DecidableEq, Repr, Inhabited

namespace Limits

variable {α : Type} [Scalar α]

/-- The lower end is not above the upper end. -/
def isValid : Limits α → Bool
  | free => true
  | range lower upper => decide (lower ≤ upper)

/-- The nearest position within the limits. -/
def clamp? : Limits α → α → Option α
  | free, x => some x
  | range lower upper, x => clampBetween? lower upper x

/-- The position lies within the limits, ends included. -/
def contains : Limits α → α → Bool
  | free, x => decide (x ≤ x)
  | range lower upper, x => decide (lower ≤ x) && decide (x ≤ upper)

end Limits

/-! ## joints and their links -/

inductive JointKind where
  | revolute
  | prismatic
  | fixed
deriving DecidableEq, Repr, Inhabited

namespace JointKind

def name : JointKind → String
  | revolute => "revolute"
  | prismatic => "prismatic"
  | fixed => "fixed"

/-- The joint moves. -/
def isActuated : JointKind → Bool
  | fixed => false
  | _ => true

end JointKind

structure Segment (α : Type) where
  joint : String
  /-- The frame that the segment carries. -/
  link : String
  kind : JointKind
  /-- The direction of the joint in its own frame. -/
  axis : Vec3 α
  /-- The placement of the joint in the frame before. -/
  origin : Pose α
  limits : Limits α := .free
deriving BEq, DecidableEq, Repr, Inhabited

namespace Segment

variable {α : Type}

def isActuated (s : Segment α) : Bool := s.kind.isActuated

/-- The motion of the joint at the given position: an angle, a length, or nothing. -/
def jointTransform [Scalar α] (s : Segment α) (position : α) : Pose α :=
  match s.kind with
  | .revolute => .ofRotation (.ofAxisAngle s.axis position)
  | .prismatic => .ofDisplacement (s.axis.scale position)
  | .fixed => .one

end Segment

end ArmServo
