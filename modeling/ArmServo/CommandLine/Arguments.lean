import ArmServo.Controller.Servo
import ArmServo.Decimal.Read
import ArmServo.Text

/-!
# Arguments

The program checks a configuration or runs it. Options are given by a long name or by a letter,
and their values as the next argument or attached to the name; each option is given once at most.
What is asked for is a `Command`; arguments that ask for nothing give none.
-/

namespace ArmServo.CommandLine

inductive Setting where
  | config
  | ticks
  | error
  | start
  | realtime
  | pauseAfter
  | resumeAfter
deriving DecidableEq, Repr

namespace Setting

def long : Setting → String
  | config => "config"
  | ticks => "ticks"
  | error => "error"
  | start => "start"
  | realtime => "realtime"
  | pauseAfter => "pause-after"
  | resumeAfter => "resume-after"

def letter? : Setting → Option Char
  | config => some 'c'
  | ticks => some 't'
  | error => some 'e'
  | start => some 's'
  | _ => none

/-- The option has a value; otherwise it is a switch. -/
def hasValue : Setting → Bool
  | realtime => false
  | _ => true

/-- The next argument is the value even if it begins with a hyphen. -/
def takesHyphens : Setting → Bool
  | error | start => true
  | _ => false

end Setting

/-- What a run is asked to do. Error and start are lists of numbers that are read later. -/
structure RunOptions where
  config : String
  ticks : Nat
  error : String
  start : Option String
  realtime : Bool
  schedule : Schedule
deriving DecidableEq, Repr

inductive Command where
  | version
  | check (config : String)
  | run (options : RunOptions)
deriving DecidableEq, Repr

/-! ## options and their values -/

/-- The option that an argument names, and the value that is attached to it. -/
def named? (known : List Setting) (argument : List Char) :
    Option (Setting × Option (List Char)) :=
  match argument with
  | '-' :: '-' :: r =>
    let (name, value) := Text.cut (· == '=') r
    (known.find? fun p => p.long.toList == name).map (·, value)
  | '-' :: c :: r =>
    let value := match r with
      | [] => none
      | '=' :: v => some v
      | v => some v
    (known.find? fun p => p.letter? == some c).map (·, value)
  | _ => none

/-- The argument looks like an option; a lone hyphen does not. -/
def looksNamed (argument : String) : Bool :=
  argument.toList.head? == some '-' && argument != "-"

/-- The options in the order given, switches with an empty value. -/
def readOptions? (known : List Setting) : List String → Option (List (Setting × String))
  | [] => some []
  | ["--"] => some []
  | argument :: rest =>
    match named? known argument.toList with
    | none => none
    | some (p, some v) =>
      if p.hasValue then (readOptions? known rest).map ((p, String.ofList v) :: ·) else none
    | some (p, none) =>
      if p.hasValue then
        match rest with
        | [] => none
        | v :: rest =>
          if p.takesHyphens || !looksNamed v then (readOptions? known rest).map ((p, v) :: ·)
          else none
      else (readOptions? known rest).map ((p, "") :: ·)

/-- The options, each given once at most. -/
def options? (known : List Setting) (arguments : List String) :
    Option (List (Setting × String)) := do
  let options ← readOptions? known arguments
  if (options.map Prod.fst).Nodup then some options else none

/-- A whole number below `2 ^ 64`; a plus may stand in front. -/
def count? (s : String) : Option Nat := do
  let digits := match s.toList with
    | '+' :: r => r
    | r => r
  let n ← Decimal.natural? digits
  if n < Nat.pow 2 64 then some n else none

/-- A number that need not be given. -/
def optionalCount? (value : Option String) : Option (Option Nat) :=
  match value with
  | none => some none
  | some s => (count? s).map some

/-- A path, which is not empty. -/
def path? (value : Option String) : Option String :=
  match value with
  | some "" => none
  | value => value

/-! ## commands -/

def defaultTicks : Nat := 100

def readCheck? (arguments : List String) : Option Command := do
  let options ← options? [.config] arguments
  some (.check (← path? (options.lookup .config)))

/-- A run may go on only if it pauses. -/
def readRun? (arguments : List String) : Option Command := do
  let options ← options?
    [.config, .ticks, .error, .start, .realtime, .pauseAfter, .resumeAfter] arguments
  let pauseAfter ← optionalCount? (options.lookup .pauseAfter)
  let resumeAfter ← optionalCount? (options.lookup .resumeAfter)
  if resumeAfter.isSome && pauseAfter.isNone then none
  some (.run {
    config := ← path? (options.lookup .config)
    ticks := (← optionalCount? (options.lookup .ticks)).getD defaultTicks
    error := ← options.lookup .error
    start := options.lookup .start
    realtime := (options.lookup .realtime).isSome
    schedule := ⟨pauseAfter, resumeAfter⟩ })

/-- What the arguments ask for. -/
def Command.ofArguments? : List String → Option Command
  | "check" :: rest => readCheck? rest
  | "run" :: rest => readRun? rest
  | argument :: _ =>
    if argument = "--version" ∨ argument.startsWith "-V" then some .version else none
  | [] => none

end ArmServo.CommandLine
