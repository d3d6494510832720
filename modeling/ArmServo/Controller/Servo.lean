import ArmServo.Controller.Order

/-!
# A controller and its servo

What a host does with an initialized controller at a bench: it gives cues, and after a tick that
succeeds the joints follow their commands for the period, unless the controller is paused.

A scheduled run controls a bench over a number of periods under a constant error, pauses before one
of them and goes on before another. The time that has passed is counted, and a run stops when it gets
out of range.
-/

namespace ArmServo

/-! ## scheduled runs -/

/-- Before which periods, counted from zero, a run pauses and goes on. -/
structure Schedule where
  pauseAfter : Option Nat := none
  resumeAfter : Option Nat := none
deriving DecidableEq, Repr

namespace Station

variable {α : Type} [Scalar α]

/-- One period, after which the joints of the bench follow their commands unless the controller is
paused. -/
def tickAndFollow (error : Axes α) (period : Period) : Operation (Bench α) BenchHandle α Unit := do
  tick error period
  modify (follow period)

/-- The given number of periods from the one at `index` on. -/
def runPeriods (schedule : Schedule) (error : Axes α) (period : Period) :
    (count index : Nat) → (elapsed : Period) → Operation (Bench α) BenchHandle α Unit
  | 0, _, _ => pure ()
  | count + 1, index, elapsed => do
    if schedule.pauseAfter = some index then pause
    if schedule.resumeAfter = some index then resume
    tickAndFollow error period
    match elapsed.add? period with
    | some elapsed => runPeriods schedule error period count (index + 1) elapsed
    | none => throw .stopped

/-- A run from the measured state of the joints on. A gap of two periods has to be in range, too. -/
def runSchedule (schedule : Schedule) (error : Axes α) (period : Period) (count : Nat) :
    Operation (Bench α) BenchHandle α Unit := do
  start
  match period.times? 2 with
  | some _ => runPeriods schedule error period count 0 .zero
  | none => throw .stopped

end Station

/-! ## cues -/

/-- A cue of a host to an initialized controller. -/
inductive Cue (α : Type) where
  | tick (error : Axes α) (period : Period)
  | start
  | pause
  | resume
  | resetPid
  | timeJump
  | setGains (gains : Pid.SpatialGains α)

namespace Cue

variable {α : Type}

def order : Cue α → Order α
  | tick error period => .tick error period
  | start => .start
  | pause => .pause
  | resume => .resume
  | resetPid => .resetPid
  | timeJump => .timeJump
  | setGains gains => .setGains gains

end Cue

namespace Station

variable {α : Type} [Scalar α]

def follows (cue : Cue α) : Operation (Bench α) BenchHandle α Unit :=
  match cue with
  | .tick error period => tickAndFollow error period
  | cue => perform cue.order

/-- The station after a list of cues, whatever the answers are. -/
def played (s : Station (Bench α) BenchHandle α) (cues : List (Cue α)) :
    Station (Bench α) BenchHandle α :=
  cues.foldl (fun s cue => ((follows cue).run s).2) s

/-- A host configures a controller for commands of the given kind and starts it. -/
def launch (writes : CommandKind) (config : Config α) : List (Event (Bench α) α) :=
  [.order (.configure { config with commandKind := some writes }), .order .start]

/-- A station that writes commands of the given kind after its launch. -/
def launched (writes : CommandKind) (config : Config α) (b : Bench α) :
    Station (Bench α) BenchHandle α :=
  (fresh writes b).after (launch writes config)

end Station

end ArmServo
