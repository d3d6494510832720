import ArmServo.Decimal.Digits

/-!
# Reading numbers

Whole numbers are decimal digits. A number may have a sign, a fraction and an exponent, and needs
one digit before or after its point; infinite and undefined numbers are written by name, in
letters of either case. It is read to the nearest double.
-/

namespace ArmServo

namespace Decimal

/-- The number that decimal digits write. -/
def ofDigits (cs : List Char) : Nat := cs.foldl (fun n c => n * 10 + (c.toNat - '0'.toNat)) 0

/-- The number that a text of decimal digits writes; there has to be one digit at least. -/
def natural? (cs : List Char) : Option Nat :=
  if !cs.isEmpty && cs.all Char.isDigit then some (ofDigits cs) else none

/-- Whether a minus stands in front, and what follows the sign. -/
def unsign : List Char → Bool × List Char
  | '-' :: r => (true, r)
  | '+' :: r => (false, r)
  | r => (false, r)

/-- What stands behind the digits: nothing, or an exponent with or without a sign. -/
def exponent? : List Char → Option Int
  | [] => some 0
  | c :: r => do
    if c ≠ 'e' ∧ c ≠ 'E' then none
    let (negative, digits) := unsign r
    let n ← natural? digits
    some (if negative then -(n : Int) else n)

/-- The fraction behind a point, and what stands behind it. -/
def fraction : List Char → List Char × List Char
  | '.' :: r => (r.takeWhile Char.isDigit, r.dropWhile Char.isDigit)
  | r => ([], r)

/-- The decimal that a text without a sign writes. -/
def read? (cs : List Char) : Option Decimal := do
  let front := cs.takeWhile Char.isDigit
  let (back, rest) := fraction (cs.dropWhile Char.isDigit)
  if front.isEmpty && back.isEmpty then none
  let e ← exponent? rest
  some ⟨ofDigits (front ++ back), e - (back.length : Int)⟩

end Decimal

/-- Why a text is no number. -/
inductive NumberFault where
  | empty
  | malformed
deriving DecidableEq, Repr

def NumberFault.message : NumberFault → String
  | empty => "cannot parse float from empty string"
  | malformed => "invalid float literal"

/-- The names of infinite and undefined numbers. -/
def namedMagnitude? (cs : List Char) : Option Float :=
  match String.ofList (cs.map Char.toLower) with
  | "inf" | "infinity" => some Exact.infinity
  | "nan" => some (0.0 / 0.0)
  | _ => none

/-- The double that a text writes. -/
def readNumber? (cs : List Char) : Except NumberFault Float :=
  if cs.isEmpty then throw .empty
  else
    let (negative, magnitude) := Decimal.unsign cs
    match (namedMagnitude? magnitude).or ((Decimal.read? magnitude).map Decimal.toFloat) with
    | some x => pure (if negative then -x else x)
    | none => throw .malformed

end ArmServo
