import ArmServo.Error
import ArmServo.Motion.Solver
import ArmServo.Pid.Spatial

/-!
# Configurations

A configuration describes an arm from its root frame on, names the part of it that is to be moved
and the joints of that part, and sets gains, damping, period and kind of command.
`Config.validate?` names the first parameter that is missing or senseless; `Config.chain?` builds
the chain that is to be moved.
-/

namespace ArmServo

structure SegmentEntry (α : Type) where
  joint : String
  link : String
  kind : JointKind
  axis : Vec3 α
  /-- Where the joint is placed in the frame before. -/
  xyz : Vec3 α
  /-- How the joint is turned there, by roll, pitch and yaw. -/
  rpy : Vec3 α
  limits : Limits α
deriving BEq, DecidableEq, Repr

structure Config (α : Type) where
  /-- The first frame of the description; the base frame if there is none. -/
  rootFrame : Option String
  /-- The frame in which errors and velocities are expressed. -/
  baseFrame : String
  tipFrame : String
  /-- The joints that move between base and tip, in order. -/
  joints : List String
  commandKind : Option CommandKind
  periodMs : α
  damping : α
  gains : Pid.SpatialGains α
  segments : List (SegmentEntry α)
deriving BEq, DecidableEq, Repr

/-- The segment that an entry describes. The axis of a fixed joint does not matter. -/
def SegmentEntry.toSegment {α : Type} [Scalar α] (s : SegmentEntry α) : Segment α where
  joint := s.joint
  link := s.link
  kind := s.kind
  axis := if s.kind.isActuated then s.axis else .unitZ
  origin := .ofXyzRpy s.xyz s.rpy
  limits := s.limits

namespace Config

variable {α : Type} [Scalar α]

/-- Periods are given in milliseconds. -/
def defaultPeriodMs : α := Scalar.two

/-- The period, to the nearest nanosecond; it has to be one nanosecond at least. -/
def period? (c : Config α) : Except (ControlError α) Period :=
  if 0 < c.periodMs then
    match Scalar.nanoseconds? (c.periodMs / Scalar.ofNat 1000) with
    | some (n + 1) => pure ⟨n + 1⟩
    | _ => throw (.configuration (.invalidPeriod c.periodMs))
  else throw (.configuration (.invalidPeriod c.periodMs))

def commandKind? (c : Config α) : Except (ControlError α) CommandKind :=
  match c.commandKind with
  | some kind => pure kind
  | none => throw (.missingParameter .commandType)

/-- The first axis with a gain that is not finite. -/
def faultyAxis? (c : Config α) : Option Axis :=
  ((Axis.all.zip c.gains.toList).find? fun x => !x.2.isFinite).map Prod.fst

/-- All parameters are there, the period makes sense and the gains are finite. -/
def validate? (c : Config α) : Except (ControlError α) Unit := do
  if c.baseFrame.isEmpty then throw (.missingParameter .baseFrame)
  if c.tipFrame.isEmpty then throw (.missingParameter .tipFrame)
  if c.joints.isEmpty then throw (.missingParameter .joints)
  if c.commandKind.isNone then throw (.missingParameter .commandType)
  if c.segments.isEmpty then throw (.missingParameter .segments)
  let _ ← c.period?
  match c.faultyAxis? with
  | some axis => throw (.configuration (.nonFiniteGains axis))
  | none => pure ()

/-- The chain of the whole description. -/
def description? (c : Config α) : Except (ChainError α) (Chain α) :=
  Chain.ofSegments? (c.rootFrame.getD c.baseFrame) (c.segments.map SegmentEntry.toSegment)

/-- The chain from base to tip, whose moving joints are those that are listed. -/
def chain? (c : Config α) : Except (ControlError α) (Chain α) := do
  c.validate?
  match c.description? >>= (·.between? c.baseFrame c.tipFrame) with
  | .error e => throw (.kinematics e)
  | .ok chain =>
    if chain.jointNames = c.joints then pure chain
    else throw (.configuration (.jointMismatch c.joints c.baseFrame c.tipFrame chain.jointNames))

end Config

end ArmServo
