import ArmServo.Scalar

/-!
# Periods

A span of time in whole nanoseconds. The programs that add spans up refuse to go beyond `2 ^ 64`
seconds.
-/

namespace ArmServo

structure Period where
  nanos : Nat
deriving DecidableEq, Repr, Inhabited

namespace Period

def zero : Period := ⟨0⟩

def isZero (p : Period) : Bool := p.nanos == 0

def nanosPerSecond : Nat := 1000000000

/-- Periods stay below `2 ^ 64` seconds. -/
def bound : Nat := Nat.pow 2 64 * nanosPerSecond

def wholeSeconds (p : Period) : Nat := p.nanos / nanosPerSecond

/-- The nanoseconds beyond the whole seconds. -/
def restNanos (p : Period) : Nat := p.nanos % nanosPerSecond

/-- The period in seconds: the whole seconds and the rest are converted apart, then added. -/
def seconds {α : Type} [Scalar α] (p : Period) : α :=
  Scalar.ofNat p.wholeSeconds + Scalar.ofNat p.restNanos / Scalar.ofNat nanosPerSecond

/-- The sum, if it stays below the bound. -/
def add? (p q : Period) : Option Period :=
  if p.nanos + q.nanos < bound then some ⟨p.nanos + q.nanos⟩ else none

/-- The multiple, if it stays below the bound. -/
def times? (p : Period) (k : Nat) : Option Period :=
  if p.nanos * k < bound then some ⟨p.nanos * k⟩ else none

/-! ## text -/

/-- The digits of `part` out of `10 ^ places`, without zeros at the end. -/
def fractionDigits : (places part : Nat) → List Char
  | 0, _ => []
  | k + 1, part =>
    if part = 0 then []
    else Nat.digitChar (part / Nat.pow 10 k) :: fractionDigits k (part % Nat.pow 10 k)

/-- A whole part, a fraction if there is one, and the unit. -/
def amount (whole part places : Nat) (unit : String) : String :=
  let fraction := if part = 0 then "" else "." ++ String.ofList (fractionDigits places part)
  toString whole ++ fraction ++ unit

/-- The period in the largest unit of which it holds at least one: seconds, milliseconds,
microseconds or nanoseconds. -/
def text (p : Period) : String :=
  let n := p.nanos
  if 1000000000 ≤ n then amount (n / 1000000000) (n % 1000000000) 9 "s"
  else if 1000000 ≤ n then amount (n / 1000000) (n % 1000000) 6 "ms"
  else if 1000 ≤ n then amount (n / 1000) (n % 1000) 3 "µs"
  else amount n 0 0 "ns"

end Period

end ArmServo
