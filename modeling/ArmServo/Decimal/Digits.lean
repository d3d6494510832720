import ArmServo.Decimal.Ratio

/-!
# Decimal digits

Reading a decimal gives the nearest double; `Decimal.shortest` gives the fewest digits that read
back as a given double, and of those the nearest to it.
-/

namespace ArmServo

/-- A decimal `significand * 10 ^ exponent`. -/
structure Decimal where
  significand : Nat
  exponent : Int
deriving DecidableEq, Repr

namespace Decimal

/-- How many decimal digits a whole number has; zero has none. -/
def digitCount (n : Nat) : Nat := if n = 0 then 0 else (Nat.toDigits 10 n).length

/-! ## reading -/

def toRatio (d : Decimal) : Ratio := (Ratio.ofNat d.significand).timesPowTen d.exponent

/-- The bits of the nearest double. Decimals of more than four hundred places before or after the
point lie outside the range of doubles. -/
def nearestBits (d : Decimal) : Nat :=
  let places := digitCount d.significand + d.exponent
  if places < -400 then 0
  else if 400 < places then if d.significand = 0 then 0 else Exact.infinityBits
  else d.toRatio.nearestBits

/-- The double nearest to the decimal, ties to even, infinite beyond the largest. -/
def toFloat (d : Decimal) : Float := Float.ofBits (UInt64.ofNat d.nearestBits)

/-! ## writing -/

/-- The same value without zeros at the end of the significand; `rounds` bounds their number. -/
def dropZeros : (rounds : Nat) → Decimal → Decimal
  | 0, d => d
  | k + 1, d =>
    if d.significand ≠ 0 ∧ d.significand % 10 = 0 then
      dropZeros k ⟨d.significand / 10, d.exponent + 1⟩
    else d

/-- Of the two neighbours of `q` among the multiples of `10 ^ e`, one that reads back as the given
bits, the nearer one if both do. -/
def neighbour? (bits : Nat) (q : Ratio) (e : Int) : Option Decimal :=
  let g := q.timesPowTen (-e)
  let below : Decimal := ⟨g.floor, e⟩
  let above : Decimal := ⟨g.floor + 1, e⟩
  let candidates := if g.isNearerBelow then [below, above] else [above, below]
  candidates.find? fun d => d.nearestBits == bits

/-- All digits of `significand * 2 ^ exponent`. -/
def ofBinary (significand : Nat) : Int → Decimal
  | .ofNat e => ⟨significand * Nat.pow 2 e, 0⟩
  | .negSucc e => ⟨significand * Nat.pow 5 (e + 1), .negSucc e⟩

/-- The fewest digits that read back as the positive double `significand * 2 ^ exponent`, and of
those the nearest to it. Seventeen digits always suffice. -/
def shortest (significand : Nat) (exponent : Int) : Decimal :=
  let q := Ratio.ofBinary significand exponent
  let k := q.point digitCount
  let found := (List.range 17).findSome? fun n => neighbour? q.nearestBits q (k - (n + 1 : Nat))
  dropZeros 400 (found.getD (ofBinary significand exponent))

end Decimal

end ArmServo
