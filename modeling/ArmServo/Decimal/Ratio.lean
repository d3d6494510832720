/-!
# The exact value of a double, fractions and the nearest double

A finite double is a sign and a magnitude `significand * 2 ^ exponent`. The sign is the highest of
its 64 bits; eleven bits below it are the exponent field, and the other 52 the fraction.

Decimal text and doubles meet in fractions of whole numbers, which hold the values of both. The
doubles from zero to infinity are in the order of their bits, so that the double nearest to a
fraction is found by rounding a whole number.
-/

namespace ArmServo

/-- What a double stands for. A zero has significand zero and keeps its sign. -/
inductive Exact where
  | undefined
  | infinite (negative : Bool)
  | finite (negative : Bool) (significand : Nat) (exponent : Int)
deriving DecidableEq, Repr

namespace Exact

/-- The unit of the exponent field, `2 ^ 52`. -/
def fieldUnit : Nat := 4503599627370496

/-- The bits of positive infinity, whose exponent field is the largest and whose fraction is zero.
-/
def infinityBits : Nat := 2047 * fieldUnit

/-- Positive infinity. -/
def infinity : Float := Float.ofBits (UInt64.ofNat infinityBits)

/-- The sign bit, `2 ^ 63`. -/
def signUnit : Nat := 2048 * fieldUnit

/-- The least exponent, which is that of the field zero and of the field one. -/
def minimalExponent : Int := -1074

/-- The value with the given bits. -/
def ofBits (bits : Nat) : Exact :=
  let negative := decide (signUnit ≤ bits)
  let field := bits % signUnit / fieldUnit
  let fraction := bits % fieldUnit
  if field = 2047 then if fraction = 0 then infinite negative else undefined
  else if field = 0 then finite negative fraction minimalExponent
  else finite negative (fieldUnit + fraction) (minimalExponent + (field - 1 : Nat))

def ofFloat (x : Float) : Exact := ofBits x.toBits.toNat

end Exact

/-- A fraction of whole numbers. -/
structure Ratio where
  num : Nat
  den : Nat
deriving DecidableEq, Repr

namespace Ratio

/-- The fraction times `2 ^ e`. -/
def timesPowTwo (q : Ratio) : Int → Ratio
  | .ofNat e => ⟨q.num * Nat.pow 2 e, q.den⟩
  | .negSucc e => ⟨q.num, q.den * Nat.pow 2 (e + 1)⟩

/-- The fraction times `10 ^ e`. -/
def timesPowTen (q : Ratio) : Int → Ratio
  | .ofNat e => ⟨q.num * Nat.pow 10 e, q.den⟩
  | .negSucc e => ⟨q.num, q.den * Nat.pow 10 (e + 1)⟩

def ofNat (n : Nat) : Ratio := ⟨n, 1⟩

/-- `significand * 2 ^ exponent`. -/
def ofBinary (significand : Nat) (exponent : Int) : Ratio :=
  (ofNat significand).timesPowTwo exponent

def floor (q : Ratio) : Nat := q.num / q.den

/-- The nearest whole number, of two equally near ones the even one. -/
def round (q : Ratio) : Nat :=
  let r := q.num % q.den
  let n := q.num / q.den
  if 2 * r < q.den then n
  else if q.den < 2 * r then n + 1
  else if n % 2 = 0 then n
  else n + 1

/-- Whether the fraction is closer to the whole number below it than to the one above. -/
def isNearerBelow (q : Ratio) : Bool := decide (2 * (q.num % q.den) < q.den)

/-- The place of the point in front of which a positive fraction has no digit, if `count` counts the
digits of whole numbers: `b ^ (k - 1) ≤ q < b ^ k` to base `b`. -/
def point (count : Nat → Nat) (q : Ratio) : Int :=
  if q.den ≤ q.num then count q.floor else 1 - (count ((q.den - 1) / q.num) : Int)

/-! ## the nearest double -/

/-- How many binary digits a positive whole number has. -/
def bitCount (n : Nat) : Nat := n.log2 + 1

/-- The exponent of the nearest double, so that its significand has 53 bits if the least exponent
allows it. -/
def binaryExponent (q : Ratio) : Int := max (q.point bitCount - 53) Exact.minimalExponent

/-- The bits of the nearest double, ties to even; those of infinity beyond the largest double. A
significand that rounds up to one more bit carries into the exponent field. -/
def nearestBits (q : Ratio) : Nat :=
  if q.num = 0 then 0
  else
    let e := q.binaryExponent
    let n := (q.timesPowTwo (-e)).round
    min ((e - Exact.minimalExponent).toNat * Exact.fieldUnit + n) Exact.infinityBits

end Ratio

end ArmServo
