import ArmServo.Config.Basic
import ArmServo.Scalar.Binary64
import ArmServo.Toml.Field
import ArmServo.Toml.Reader

/-!
# Reading a configuration

A configuration is read from the table that its text describes. Everything at the top has a default;
a segment needs its joint and its link, and limits need both ends.
-/

namespace ArmServo

open Toml (Value Fields)

namespace CommandKind

/-- The kinds of command by name. -/
def byName : List (String × CommandKind) := [position, velocity].map fun k => (k.name, k)

end CommandKind

namespace JointKind

/-- The kinds of joint by name. -/
def byName : List (String × JointKind) := [revolute, prismatic, fixed].map fun k => (k.name, k)

end JointKind

namespace Config

def readVec3? (v : Value) : Option (Vec3 Float) :=
  (v.triple? Value.number?).map fun (x, y, z) => ⟨x, y, z⟩

def readLimits? (v : Value) : Option (Limits Float) := do
  let f ← v.fields? ["lower", "upper"]
  some (.range (← f.required? "lower" Value.number?) (← f.required? "upper" Value.number?))

def readSegment? (v : Value) : Option (SegmentEntry Float) := do
  let f ← v.fields? ["joint", "link", "kind", "axis", "origin_xyz", "origin_rpy", "limits"]
  some {
    joint := ← f.required? "joint" Value.text?
    link := ← f.required? "link" Value.text?
    kind := ← f.withDefault? "kind" .revolute (Value.choice? JointKind.byName)
    axis := ← f.withDefault? "axis" .unitZ readVec3?
    xyz := ← f.withDefault? "origin_xyz" .zero readVec3?
    rpy := ← f.withDefault? "origin_rpy" .zero readVec3?
    limits := ← f.withDefault? "limits" .free readLimits? }

def readDamping? (v : Value) : Option Float := do
  let f ← v.fields? ["damping"]
  f.withDefault? "damping" Solver.defaultDamping Value.number?

def readGains? (v : Value) : Option (Pid.Gains Float) := do
  let f ← v.fields? ["p", "i", "d", "i_clamp"]
  some {
    p := ← f.withDefault? "p" 0 Value.number?
    i := ← f.withDefault? "i" 0 Value.number?
    d := ← f.withDefault? "d" 0 Value.number?
    iClamp := ← f.withDefault? "i_clamp" 0 Value.number? }

def readSpatialGains? (v : Value) : Option (Pid.SpatialGains Float) := do
  let f ← v.fields? (Axis.all.map Axis.name)
  let gains ← (Axes.ofFn fun k => f.withDefault? k.name .zero readGains?).sequence
  some gains

def read? (v : Value) : Option (Config Float) := do
  let f ← v.fields? ["root_frame", "base_frame", "tip_frame", "joints", "command_type",
    "period_ms", "solver", "gains", "segments"]
  some {
    rootFrame := ← f.optional? "root_frame" Value.text?
    baseFrame := ← f.withDefault? "base_frame" "" Value.text?
    tipFrame := ← f.withDefault? "tip_frame" "" Value.text?
    joints := ← f.withDefault? "joints" [] (Value.list? Value.text?)
    commandKind := ← f.optional? "command_type" (Value.choice? CommandKind.byName)
    periodMs := ← f.withDefault? "period_ms" defaultPeriodMs Value.number?
    damping := ← f.withDefault? "solver" Solver.defaultDamping readDamping?
    gains := ← f.withDefault? "gains" (.uniform .zero) readSpatialGains?
    segments := ← f.withDefault? "segments" [] (Value.list? readSegment?) }

/-- The configuration that a text describes. -/
def ofText? (s : String) : Except (ControlError Float) (Config Float) :=
  match (Toml.Entries.ofText? s).bind fun entries => read? (.table .header entries) with
  | some c => pure c
  | none => throw .malformed

/-- The configuration in the bytes of a file, which have to be a text. -/
def ofBytes? (bytes : ByteArray) : Except (ControlError Float) (Config Float) :=
  match String.fromUTF8? bytes with
  | some s => ofText? s
  | none => throw (.unreadable .notText)

end Config

end ArmServo
