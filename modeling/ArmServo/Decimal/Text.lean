import ArmServo.Decimal.Digits

/-!
# Numbers as text

Numbers are written positionally, never with an exponent. `display` writes the fewest digits that
read back; `displayFixed` a given number of places, rounded from the exact value with ties to even.
Both keep the sign of zero. Columns are padded with blanks to a count of characters.
-/

namespace ArmServo

namespace Text

def blanks (n : Nat) : String := String.ofList (List.replicate n ' ')

def zeros (n : Nat) : String := String.ofList (List.replicate n '0')

/-- Blanks on the right up to `width` characters. -/
def padRight (width : Nat) (s : String) : String := s ++ blanks (width - s.length)

/-- Blanks on the left up to `width` characters. -/
def padLeft (width : Nat) (s : String) : String := blanks (width - s.length) ++ s

/-- A whole number with zeros on the left up to `width` digits. -/
def padZeros (width n : Nat) : String :=
  let s := toString n
  zeros (width - s.length) ++ s

end Text

namespace Decimal

/-- The decimal written without an exponent, and without a point if it is whole. -/
def positional (d : Decimal) : String :=
  match d.exponent with
  | .ofNat e => toString d.significand ++ Text.zeros (if d.significand = 0 then 0 else e)
  | .negSucc e =>
    let scale := Nat.pow 10 (e + 1)
    toString (d.significand / scale) ++ "." ++ Text.padZeros (e + 1) (d.significand % scale)

end Decimal

/-- How special values and the sign are written. -/
def Exact.write (undefined : String) (magnitude : Nat → Int → String) : Exact → String
  | .undefined => undefined
  | .infinite negative => (if negative then "-" else "") ++ "inf"
  | .finite negative m e => (if negative then "-" else "") ++ magnitude m e

/-- The fewest digits that read back as `x`. -/
def display (x : Float) : String :=
  (Exact.ofFloat x).write "NaN" fun m e =>
    if m = 0 then "0" else (Decimal.shortest m e).positional

/-- `x` with `places` digits after the point. -/
def displayFixed (places : Nat) (x : Float) : String :=
  (Exact.ofFloat x).write "NaN" fun m e =>
    let n := ((Ratio.ofBinary m e).timesPowTen places).round
    (Decimal.mk n (-(places : Int))).positional

end ArmServo
