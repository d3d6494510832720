import ArmServo.CommandLine.Failure
import ArmServo.Config.Basic
import ArmServo.Scalar.Binary64

/-!
# Checking a configuration

A check builds the chain and tells its frames, joints and limits, the kind of command, the period,
the damping, and where the tip is with all joints at zero.
-/

namespace ArmServo.CommandLine

/-- What a check finds. -/
structure Findings (α : Type) where
  chain : Chain α
  kind : CommandKind
  period : Period
deriving BEq, DecidableEq, Repr

def checkConfig? {α : Type} [Scalar α] (c : Config α) : Except (CommandError α) (Findings α) := do
  let chain ← c.chain?.mapError .invalidChain
  let kind ← c.commandKind?.mapError .refused
  let period ← c.period?.mapError .refused
  pure ⟨chain, kind, period⟩

/-! ## the report -/

/-- Numbers between brackets, with the given number of places. -/
def bracketed (places : Nat) (v : Vec3 Float) : String :=
  "[" ++ ", ".intercalate (v.toList.map (displayFixed places)) ++ "]"

/-- The lower and the upper end, in columns. -/
def limitsText (l : Limits Float) : String :=
  let column (x : Float) := Text.padLeft 8 (displayFixed 4 x)
  let (lower, upper) := match l with
    | .free => (-Exact.infinity, Exact.infinity)
    | .range lower upper => (lower, upper)
  "[" ++ column lower ++ ", " ++ column upper ++ "]"

/-- Where the tip is with all joints at zero. -/
def Findings.home {α : Type} [Scalar α] (f : Findings α) : Vec3 α :=
  (f.chain.poseAt (List.replicate f.chain.dof 0) f.chain.segments.length).displacement

/-- What is told about a configuration with the given damping. -/
def Findings.lines (f : Findings Float) (damping : Float) : List String :=
  ["Chain:        " ++ f.chain.text,
    "Frames:       " ++ " -> ".intercalate f.chain.frames,
    "DOF:          " ++ toString f.chain.dof,
    "Command type: " ++ f.kind.name,
    "Period:       " ++ f.period.text,
    "Damping:      " ++ display damping,
    "Joints:"] ++
  (f.chain.actuated.map fun s => "  " ++ Text.padRight 16 s.joint ++ " " ++ limitsText s.limits) ++
  ["Tip at zero:  " ++ bracketed 4 f.home]

end ArmServo.CommandLine
