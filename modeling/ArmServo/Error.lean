import ArmServo.Chain.Basic
import ArmServo.Geometry.Axes
import ArmServo.Motion.Basic
import ArmServo.Period
import ArmServo.Text

/-!
# What an operation refuses

Every refusal is a cause with its data. `ControlError.message` is the wording, and
`ControlError.isConfiguration` tells the refusals that a host has to stop at, because they lie in
the configuration, from those of a running controller.
-/

namespace ArmServo

/-- A parameter that has no default. -/
inductive Parameter where
  | baseFrame
  | tipFrame
  | joints
  | commandType
  | segments
deriving DecidableEq, Repr

def Parameter.name : Parameter → String
  | baseFrame => "base_frame"
  | tipFrame => "tip_frame"
  | joints => "joints"
  | commandType => "command_type"
  | segments => "segments"

/-- A value of a configuration that makes no sense. -/
inductive ConfigFault (α : Type) where
  | invalidDamping (damping : α)
  | invalidPeriod (milliseconds : α)
  | nonFiniteGains (axis : Axis)
  | jointMismatch (listed : List String) (base tip : String) (actuated : List String)
deriving BEq, DecidableEq, Repr

/-- A value that has to be finite. -/
inductive Quantity where
  | cartesianError
  | pidOutput
deriving DecidableEq, Repr

/-- Why a configuration file could not be read. -/
inductive ReadFault where
  | missing
  | directory
  | notDirectory
  | denied
  | notText
  /-- for any other reason -/
  | other (reason : String)
deriving DecidableEq, Repr

inductive ControlError (α : Type) where
  | missingParameter (parameter : Parameter)
  | configuration (fault : ConfigFault α)
  | unknownHardwareHandle (joint : String)
  | commandTypeMismatch (expected configured : CommandKind)
  | notInitialized
  | invalidPeriod (period : Period)
  | nonFinite (quantity : Quantity)
  | kinematics (error : ChainError α)
  | unreadable (fault : ReadFault)
  | malformed
deriving BEq, DecidableEq, Repr

def ConfigFault.message : ConfigFault Float → String
  | .invalidDamping x =>
    "Invalid solver damping: " ++ display x ++ " (must be finite and >= 0)"
  | .invalidPeriod x =>
    "Invalid period_ms: " ++ display x ++ " (must be a positive duration of at least 1 ns)"
  | .nonFiniteGains axis => "Non-finite PID gains for axis " ++ axis.name
  | .jointMismatch listed base tip actuated =>
    "Joint list " ++ Text.quotedList listed ++ " does not match the actuated joints of chain " ++
      base ++ " -> " ++ tip ++ ": " ++ Text.quotedList actuated

def Quantity.name : Quantity → String
  | cartesianError => "Cartesian error"
  | pidOutput => "spatial PID output"

def ReadFault.message : ReadFault → String
  | missing => "No such file or directory (os error 2)"
  | directory => "Is a directory (os error 21)"
  | notDirectory => "Not a directory (os error 20)"
  | denied => "Permission denied (os error 13)"
  | notText => "stream did not contain valid UTF-8"
  | other reason => reason

namespace ControlError

def message : ControlError Float → String
  | missingParameter p => "Missing required parameter '" ++ p.name ++ "'"
  | configuration fault => "Configuration error: " ++ fault.message
  | unknownHardwareHandle joint => "No hardware handle for joint '" ++ joint ++ "'"
  | commandTypeMismatch expected configured =>
    "Command type mismatch: controller writes " ++ expected.name ++
      " commands, configuration requests " ++ configured.name
  | notInitialized => "Controller is not initialized"
  | invalidPeriod p => "Invalid control period: " ++ p.text ++ " (must be > 0)"
  | nonFinite quantity => "Non-finite " ++ quantity.name ++ " rejected"
  | kinematics e => "Kinematics error: " ++ e.message
  | unreadable fault => "Failed to read configuration: " ++ fault.message
  | malformed => "Failed to parse configuration"

/-- The refusal lies in the configuration or in the hardware it names. -/
def isConfiguration {α : Type} : ControlError α → Bool
  | missingParameter _ | configuration _ | unknownHardwareHandle _ | commandTypeMismatch ..
  | unreadable _ | malformed => true
  | notInitialized | invalidPeriod _ | nonFinite _ | kinematics _ => false

/-- The error beneath a refusal, where one is passed on. -/
def cause? : ControlError Float → Option String
  | kinematics e => some e.message
  | unreadable fault => some fault.message
  | _ => none

end ControlError

/-- How an operation ends without success: it refuses, or the program stops because a value is to be
clamped between bounds that are not in order. -/
inductive Failure (α : Type) where
  | refused (error : ControlError α)
  | stopped
deriving BEq, DecidableEq, Repr

end ArmServo
