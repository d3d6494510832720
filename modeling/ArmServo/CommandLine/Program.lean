import ArmServo.CommandLine.Run
import ArmServo.Config.Reader

/-!
# The program

What the program does with its arguments, given what is in the files it names.
-/

namespace ArmServo.CommandLine

/-- How the program ends. -/
inductive Outcome where
  | printed (text : String)
  | failed (error : CommandError Float)
  | stopped
  /-- The arguments ask for nothing. -/
  | misused

def Outcome.exitCode : Outcome → Nat
  | printed _ => 0
  | failed _ => 1
  | misused => 2
  | stopped => 101

/-- What is in a file, if it can be read. -/
abbrev Files := String → Except ReadFault ByteArray

def versionText : String := "cartesian-cli 0.1.0\n"

def usageText : String :=
  "Usage: cartesian-cli check --config <CONFIG>\n" ++
  "       cartesian-cli run --config <CONFIG> --error <ERROR> [--ticks <TICKS>]\n" ++
  "         [--start <START>] [--realtime] [--pause-after <K> [--resume-after <M>]]\n"

/-- The lines, each with its line end. -/
def unlines (lines : List String) : String := String.join (lines.map (· ++ "\n"))

def load? (files : Files) (path : String) : Except (CommandError Float) (Config Float) :=
  (((files path).mapError ControlError.unreadable) >>= Config.ofBytes?).mapError (.notLoaded path)

def checkText? (files : Files) (path : String) : Except (Interruption Float) String := do
  let config ← (load? files path).mapError .failed
  let findings ← (checkConfig? config).mapError .failed
  pure (unlines (findings.lines config.damping))

def runText? (files : Files) (o : RunOptions) : Except (Interruption Float) String := do
  let config ← (load? files o.config).mapError .failed
  let station ← runConfig? config o
  let tip ← station.controller.tipPose?.mapError (.failed ∘ .refused)
  pure (unlines (reportLines station tip))

def Outcome.ofText : Except (Interruption Float) String → Outcome
  | .ok text => printed text
  | .error (.failed e) => failed e
  | .error .stopped => stopped

def perform (files : Files) (arguments : List String) : Outcome :=
  match Command.ofArguments? arguments with
  | none => .misused
  | some .version => .printed versionText
  | some (.check path) => .ofText (checkText? files path)
  | some (.run o) => .ofText (runText? files o)

end ArmServo.CommandLine
