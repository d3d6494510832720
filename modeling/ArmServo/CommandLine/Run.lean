import ArmServo.CommandLine.Arguments
import ArmServo.CommandLine.Check
import ArmServo.Controller.Servo
import ArmServo.Text

/-!
# Running a configuration

A run sets up a bench with the joints of a configuration, controls it under a constant error, and
tells where it ends. The end is told by place and by the angles about the fixed axes x, y, z that make
up the rotation; at a pitch of a quarter turn roll and yaw turn about the same axis, and all of it is
counted as roll.
-/

namespace ArmServo

/-! ## roll, pitch and yaw of a rotation -/

/-- A quarter turn. -/
def quarterTurn : Float := Float.acos 0.0

/-- Roll, pitch and yaw. -/
def Rotation.rollPitchYaw (r : Rotation Float) : Vec3 Float :=
  let m := r.toMatrix
  if Float.abs m.z.x < 1.0 then
    let pitch := -Float.asin m.z.x
    let c := Float.cos pitch
    ⟨Float.atan2 (m.z.y / c) (m.z.z / c), pitch, Float.atan2 (m.y.x / c) (m.x.x / c)⟩
  else if m.z.x ≤ -1.0 then ⟨Float.atan2 m.x.y m.x.z, quarterTurn, 0.0⟩
  else ⟨-Float.atan2 m.x.y (-m.x.z), -quarterTurn, 0.0⟩

namespace CommandLine

/-! ## the run -/

section Simulation

variable {α : Type} [Scalar α]

/-- What a run needs besides its configuration. -/
structure RunInput (α : Type) where
  error : Axes α
  /-- Where the joints start, in the order of the configuration. -/
  start : List α
  ticks : Nat
  schedule : Schedule

/-- How a command fails or stops. -/
inductive Interruption (α : Type) where
  | failed (error : CommandError α)
  | stopped
deriving BEq, DecidableEq, Repr

/-- How the failure of an operation ends a command. -/
def Interruption.ofFailure (f : ControlError α → CommandError α) : Failure α → Interruption α
  | .refused e => .failed (f e)
  | .stopped => .stopped

/-- A controller that is not yet set up, at a bench with the joints of a configuration. -/
def freshStation (c : Config α) (kind : CommandKind) (start : List α) :
    Station (Bench α) BenchHandle α :=
  ⟨⟨kind, none⟩, Bench.ofList (c.joints.zip start)⟩

/-- The station at the end of a run. -/
def simulate? (c : Config α) (kind : CommandKind) (period : Period) (input : RunInput α) :
    Except (Interruption α) (Station (Bench α) BenchHandle α) :=
  match (Station.configure c).run (freshStation c kind input.start) with
  | (.error f, _) => throw (.ofFailure .notReady f)
  | (.ok _, station) =>
    match (Station.runSchedule input.schedule input.error period input.ticks).run station with
    | (.error f, _) => throw (.ofFailure .refused f)
    | (.ok _, station) => pure station

end Simulation

/-! ## options of a run -/

/-- The numbers of a list with commas in between, with white space around them. -/
def readNumbers? (name text : String) : Except (CommandError Float) (List Float) :=
  ((Text.split ',' text.toList).mapM fun part => readNumber? (Text.trim part)).mapError
    (.notNumbers name text)

def readError? (text : String) : Except (CommandError Float) (Axes Float) := do
  let values ← readNumbers? "--error" text
  match Axes.ofList? values with
  | some error => pure error
  | none => throw (.wrongErrorCount values.length)

/-- Where the joints start, all at zero if nothing is given. -/
def readStart? (joints : Nat) (text : Option String) : Except (CommandError Float) (List Float) :=
  match text with
  | none => pure (List.replicate joints 0.0)
  | some text => do
    let values ← readNumbers? "--start" text
    if values.length = joints then pure values
    else throw (.wrongStartCount joints values.length)

/-- A run goes on only after it has paused. -/
def checkSchedule (s : Schedule) : Except (CommandError Float) Unit :=
  match s.pauseAfter, s.resumeAfter with
  | some pause, some resume =>
    if resume ≤ pause then throw (.resumeTooEarly resume pause) else pure ()
  | _, _ => pure ()

/-- The station at the end of the run that is asked for. -/
def runConfig? (c : Config Float) (o : RunOptions) :
    Except (Interruption Float) (Station (Bench Float) BenchHandle Float) := do
  let prepared : Except (CommandError Float) (CommandKind × Period × RunInput Float) := do
    c.validate?.mapError .invalidConfig
    let kind ← c.commandKind?.mapError .refused
    checkSchedule o.schedule
    let error ← readError? o.error
    let start ← readStart? c.joints.length o.start
    let period ← c.period?.mapError .refused
    pure (kind, period, ⟨error, start, o.ticks, o.schedule⟩)
  let (kind, period, input) ← prepared.mapError .failed
  simulate? c kind period input

/-! ## the report -/

/-- Where a run has ended. -/
def reportLines (s : Station (Bench Float) BenchHandle Float) (tip : Pose Float) : List String :=
  let joints := s.controller.handles.map BenchHandle.name
  ["Final state (" ++ s.controller.state.name ++ "):"] ++
  (joints.zipWith (fun name x => "  " ++ Text.padRight 16 name ++ " " ++
    Text.padLeft 10 (displayFixed 5 x)) s.hardware.positions) ++
  ["Tip position: " ++ bracketed 5 tip.displacement,
    "Tip rpy:      " ++ bracketed 5 tip.rotation.rollPitchYaw,
    "Hardware writes: " ++ toString s.hardware.totalWrites]

end CommandLine

end ArmServo
