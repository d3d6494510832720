import ArmServo.CommandLine.Program

/-!
# The command line

Reads the files that the arguments name, prints what the program has to say, and ends with its exit
code. A run in real time takes as long as its periods.
-/

namespace ArmServo.CommandLine

/-- Why the system does not give a file. Something of the wrong type is a directory in place of a
file, which the system calls 21, or a file in place of a directory. -/
def faultOf : IO.Error → ReadFault
  | .noFileOrDirectory .. => .missing
  | .permissionDenied .. => .denied
  | .inappropriateType _ code _ =>
    if code = 21 ∨ code = 0 - 21 then .directory else .notDirectory
  | e => .other e.toString

/-- The path of the configuration that a command reads. -/
def Command.path? : Command → Option String
  | version => none
  | check path => some path
  | run o => some o.config

/-- How long a command that was successful takes, in milliseconds. -/
def Command.duration (files : Files) : Command → Nat
  | run o =>
    if o.realtime then
      match load? files o.config >>= fun c => c.period?.mapError .refused with
      | .ok period => period.nanos * o.ticks / 1000000
      | .error _ => 0
    else 0
  | _ => 0

/-- What is in the one file that a command reads. -/
def readFile (path : String) : IO (Except ReadFault ByteArray) := do
  try
    pure (.ok (← IO.FS.readBinFile path))
  catch e => pure (.error (faultOf e))

def runProgram (arguments : List String) : IO UInt32 := do
  let command := Command.ofArguments? arguments
  let contents ← match command.bind Command.path? with
    | some path => readFile path
    | none => pure (.error .missing)
  let files : Files := fun _ => contents
  let outcome := perform files arguments
  match outcome with
  | .printed text => do
    match command with
    | some c => IO.sleep (UInt32.ofNat (c.duration files))
    | none => pure ()
    IO.print text
  | .failed e => IO.eprint e.text
  | .stopped => IO.eprint "period out of range\n"
  | .misused => IO.eprint usageText
  pure (UInt32.ofNat outcome.exitCode)

end ArmServo.CommandLine

def main (arguments : List String) : IO UInt32 := ArmServo.CommandLine.runProgram arguments
