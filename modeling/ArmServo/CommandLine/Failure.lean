import ArmServo.Decimal.Read
import ArmServo.Error

/-!
# Failed commands

Why a command fails, and what is said about it: a headline, and under it the causes, indented and
numbered if there are several.
-/

namespace ArmServo.CommandLine

inductive CommandError (α : Type) where
  | notLoaded (path : String) (error : ControlError α)
  | invalidChain (error : ControlError α)
  | invalidConfig (error : ControlError α)
  | notReady (error : ControlError α)
  | refused (error : ControlError α)
  | resumeTooEarly (resume pause : Nat)
  /-- A list of numbers, given under a name, holds something else. -/
  | notNumbers (name text : String) (fault : NumberFault)
  | wrongErrorCount (actual : Nat)
  | wrongStartCount (expected actual : Nat)
deriving BEq, DecidableEq, Repr

/-- An error and the one beneath it. -/
def errorChain (e : ControlError Float) : List String := e.message :: e.cause?.toList

/-- The headline, and the causes from the nearest on. -/
def CommandError.account : CommandError Float → String × List String
  | notLoaded path e => ("Failed to load " ++ path, errorChain e)
  | invalidChain e => ("Invalid kinematic chain", errorChain e)
  | invalidConfig e => ("Invalid controller configuration", errorChain e)
  | notReady e => ("Failed to initialize controller", errorChain e)
  | refused e => (e.message, e.cause?.toList)
  | resumeTooEarly resume pause =>
    ("--resume-after (" ++ toString resume ++ ") must be greater than --pause-after (" ++
      toString pause ++ ")", [])
  | notNumbers name text fault =>
    ("Failed to parse " ++ name ++ ": " ++ Text.quoted text, [fault.message])
  | wrongErrorCount n =>
    ("--error expects 6 values (vx,vy,vz,wx,wy,wz), got " ++ toString n, [])
  | wrongStartCount expected n =>
    ("--start expects " ++ toString expected ++ " values, got " ++ toString n, [])

/-- A text whose lines after the first are moved in to the width of the first line's lead. -/
def indent (lead : String) (s : String) : String :=
  lead ++ String.ofList (s.toList.flatMap fun c =>
    if c = '\n' then c :: List.replicate lead.length ' ' else [c])

/-- The account of a failure as it is written. -/
def CommandError.text (e : CommandError Float) : String :=
  let (headline, causes) := e.account
  let body := match causes with
    | [] => ""
    | [cause] => "\n\nCaused by:\n" ++ indent "    " cause
    | causes =>
      "\n\nCaused by:\n" ++ "\n".intercalate
        ((causes.zipIdx).map fun (cause, i) => indent (Text.padLeft 5 (toString i) ++ ": ") cause)
  "Error: " ++ headline ++ body ++ "\n"

end ArmServo.CommandLine
