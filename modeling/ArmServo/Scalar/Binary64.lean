import ArmServo.Scalar
import ArmServo.Decimal.Ratio
import ArmServo.Period

/-!
# Doubles as scalars

The arithmetic of the running controller. A number of seconds is turned into nanoseconds from its
exact value.
-/

namespace ArmServo

/-- The nearest whole number of nanoseconds to `x` seconds, ties to even, if `x` is a number that is
not below zero and the result is below the bound of periods. -/
def nearestNanoseconds? (x : Float) : Option Nat :=
  match Exact.ofFloat x with
  | .finite false m e =>
    let n := ((Ratio.ofBinary m e).timesPowTen 9).round
    if n < Period.bound then some n else none
  | _ => none

instance : Scalar Float where
  zero := 0.0
  one := 1.0
  decLt := Float.decLt
  decLe := Float.decLe
  ofNat := Float.ofNat
  abs := Float.abs
  sqrt := Float.sqrt
  sin := Float.sin
  cos := Float.cos
  isFinite := Float.isFinite
  nanoseconds? := nearestNanoseconds?

end ArmServo
