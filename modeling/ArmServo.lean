import ArmServo.Config.Writer
import ArmServo.Controller.Query
import ArmServo.Controller.Servo
import ArmServo.Main
import ArmServo.Proofs.Motion.Solver
import ArmServo.Proofs.Controller.Operations
import ArmServo.Proofs.Controller.Atomicity
import ArmServo.Proofs.Sample
import ArmServo.Proofs.Related
import ArmServo.Proofs.Chain.Limits
import ArmServo.Proofs.Chain.Accepted
import ArmServo.Proofs.Chain.Columns
import ArmServo.Proofs.Config.Chain
import ArmServo.Proofs.Controller.Runs
import ArmServo.Proofs.Controller.LimitSafety
import ArmServo.Proofs.Geometry.Rotation
import ArmServo.Proofs.Geometry.Twist
import ArmServo.Proofs.Chain.Velocity
import ArmServo.Proofs.Linear.Vec
import ArmServo.Proofs.Linear.Symmetric
import ArmServo.Proofs.Linear.Orthogonal
import ArmServo.Proofs.Linear.LeastSquares
import ArmServo.Proofs.Linear.Spectrum
import ArmServo.Proofs.Motion.TaskSpace
import ArmServo.Proofs.Controller.Pauses
import ArmServo.Proofs.Hardware.Bench
import ArmServo.Proofs.Motion.Joints
import ArmServo.Proofs.Controller.Lifecycle
import ArmServo.Proofs.Hardware.Servo
import ArmServo.Proofs.Controller.Servo
import ArmServo.Proofs.Scalar.Finite
import ArmServo.Proofs.Motion.Overflow
import ArmServo.Proofs.Controller.FiniteCommands
import ArmServo.Proofs.Motion.Speed
import ArmServo.Proofs.Chain.Acceptance
import ArmServo.Proofs.Config.Acceptance
import ArmServo.Proofs.Controller.Acceptance
import ArmServo.Proofs.CommandLine.Check
import ArmServo.Proofs.Toml.Quote
import ArmServo.Proofs.Decimal.Bits
import ArmServo.Proofs.Decimal.Ratio
import ArmServo.Proofs.Decimal.Digits
import ArmServo.Proofs.Decimal.Text
import ArmServo.Proofs.Toml.Numeral
import ArmServo.Proofs.Toml.Reader
import ArmServo.Proofs.Toml.Table
import ArmServo.Proofs.Config.Statements
import ArmServo.Proofs.Config.RoundTrip
import ArmServo.Proofs.Scalar.Absolute
import ArmServo.Proofs.Scalar.Magnitude
import ArmServo.Proofs.Pid.Memory
import ArmServo.Proofs.Controller.Memory
import ArmServo.Proofs.Controller.Stops
import ArmServo.Proofs.Chain.Faults
import ArmServo.Proofs.Chain.Shape
import ArmServo.Proofs.Chain.Representation
import ArmServo.Proofs.Chain.Runs
import ArmServo.Proofs.Geometry.Frames
import ArmServo.Proofs.Controller.Frames
import ArmServo.Proofs.Chain.Mounting
import ArmServo.Proofs.Motion.Mounting
import ArmServo.Proofs.Controller.Schedule
import ArmServo.Proofs.CommandLine.Run
import ArmServo.Proofs.CommandLine.PausedRun
import ArmServo.Proofs.CommandLine.TimeRange
import ArmServo.Proofs.Chain.Pointwise
import ArmServo.Proofs.Motion.Integration
import ArmServo.Proofs.Scalar.Real
import ArmServo.Proofs.Scalar.Time
import ArmServo.Proofs.Scalar.Bounds
import ArmServo.Proofs.Pid.Runs
import ArmServo.Proofs.Pid.Recovery
import ArmServo.Proofs.Geometry.Finite
import ArmServo.Proofs.Config.Geometry
import ArmServo.Proofs.Pid.Independence
import ArmServo.Proofs.Scalar.Zero
import ArmServo.Proofs.Motion.Rest
import ArmServo.Proofs.Controller.Rest
import ArmServo.Proofs.Decimal.Nearest
import ArmServo.Proofs.Scalar.Value
import ArmServo.Proofs.Config.Period
import ArmServo.Proofs.Controller.Period
import ArmServo.Proofs.Chain.Likeness
import ArmServo.Proofs.Chain.Folding
import ArmServo.Proofs.Motion.Folding
import ArmServo.Hardware.Session
import ArmServo.Proofs.Config.Faults
import ArmServo.Proofs.Controller.Refusals
import ArmServo.Proofs.Hardware.Session
