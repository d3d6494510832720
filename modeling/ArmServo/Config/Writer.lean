import ArmServo.Config.Basic
import ArmServo.Toml.Writer

/-!
# Writing a configuration

All parameters are written, also those that have their default; only a root frame, a kind of command
and limits that are not there are left out.
-/

namespace ArmServo.Config

open Toml (Atom Content Key Statement)

def textLine (name s : String) : Statement Content := .assign ⟨[], name⟩ (.atom (.text s))

def numberLine (name : String) (x : Float) : Statement Content :=
  .assign ⟨[], name⟩ (.atom (.number x))

def vec3Line (name : String) (v : Vec3 Float) : Statement Content :=
  .assign ⟨[], name⟩ (.array (v.toList.map Atom.number))

def gainsStatements (axis : Axis) (g : Pid.Gains Float) : List (Statement Content) :=
  [.table ⟨["gains"], axis.name⟩, numberLine "p" g.p, numberLine "i" g.i, numberLine "d" g.d,
    numberLine "i_clamp" g.iClamp]

def limitsStatements : Limits Float → List (Statement Content)
  | .free => []
  | .range lower upper =>
    [.table ⟨["segments"], "limits"⟩, numberLine "lower" lower, numberLine "upper" upper]

def segmentStatements (s : SegmentEntry Float) : List (Statement Content) :=
  [.element ⟨[], "segments"⟩, textLine "joint" s.joint, textLine "link" s.link,
    textLine "kind" s.kind.name, vec3Line "axis" s.axis, vec3Line "origin_xyz" s.xyz,
    vec3Line "origin_rpy" s.rpy] ++ limitsStatements s.limits

/-- Plain parameters come first, then damping, gains and segments under headers of their own. -/
def statements (c : Config Float) : List (Statement Content) :=
  (c.rootFrame.map (textLine "root_frame")).toList ++
  [textLine "base_frame" c.baseFrame, textLine "tip_frame" c.tipFrame,
    .assign ⟨[], "joints"⟩ (.array (c.joints.map Atom.text))] ++
  (c.commandKind.map fun k => textLine "command_type" k.name).toList ++
  [numberLine "period_ms" c.periodMs] ++
  (if c.segments.isEmpty then [.assign ⟨[], "segments"⟩ (.array [])] else []) ++
  [.table ⟨[], "solver"⟩, numberLine "damping" c.damping] ++
  Axis.all.flatMap (fun k => gainsStatements k (c.gains.get k)) ++
  c.segments.flatMap segmentStatements

def text (c : Config Float) : String := Toml.writeStatements c.statements

end ArmServo.Config
