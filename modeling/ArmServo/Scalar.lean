/-!
# Scalars

The numbers that positions, velocities and gains are made of. Every computation of the library is
written once over `Scalar`: at `Float` it is the binary64 arithmetic of the running controller, in
the order of operations written here and without fused operations; at an exact field it is the
mathematics that the controller approximates.
-/

namespace ArmServo

/-- Numbers with the operations of a motion computation. Comparisons are decidable, and `==` is the
equality of the arithmetic, which at `Float` is not reflexive. -/
class Scalar (α : Type) extends
    Zero α, One α, Add α, Sub α, Mul α, Div α, Neg α, LT α, LE α, BEq α where
  decLt : DecidableLT α
  decLe : DecidableLE α
  ofNat : Nat → α
  abs : α → α
  sqrt : α → α
  sin : α → α
  cos : α → α
  /-- Neither infinite nor undefined. -/
  isFinite : α → Bool
  /-- The nearest whole number of nanoseconds to a positive number of seconds, ties to even, if it
  is below `2 ^ 64` seconds. -/
  nanoseconds? : α → Option Nat

attribute [reducible, instance] Scalar.decLt Scalar.decLe

namespace Scalar

variable {α : Type} [Scalar α]

def two : α := ofNat 2

def half : α := 1 / two

/-- `10 ^ (-n)`, the quotient of two whole numbers. -/
def negPowTen (n : Nat) : α := 1 / ofNat (Nat.pow 10 n)

end Scalar

/-- `x` moved to the nearer end of the range if it lies outside; no answer unless `lower ≤ upper`.
An `x` that compares with neither end is left alone. -/
def clampBetween? {α : Type} [Scalar α] (lower upper x : α) : Option α :=
  if lower ≤ upper then
    let y := if x < lower then lower else x
    some (if upper < y then upper else y)
  else none

end ArmServo
