import ArmServo.Decimal.Read
import ArmServo.Text
import ArmServo.Toml.Moment
import ArmServo.Toml.Quote
import ArmServo.Toml.Value

/-!
# Values without quotes

Truth values, whole numbers to base ten, sixteen, eight and two, decimal numbers with a fraction
or an exponent, infinite and undefined numbers, dates and times. Single underscores may stand
between digits. A number is read to the nearest double.

The form of a token tells what kind of value it writes. In a whole number the form settles only how
it begins and what stands beside an underscore; if the rest is not digits, or if there are none,
then the token still writes a value, but one that cannot be read.
-/

namespace ArmServo.Toml.Numeral

/-! ## underscores -/

/-- The text without its underscores. They stand one by one and not at an end, and `isDigit` holds
of the characters beside them; a lone character before the first one may be anything, since a sign
may stand there. -/
def ungroup? (isDigit : Char → Bool) (cs : List Char) : Option (List Char) :=
  let parts := Text.split '_' cs
  let begins := parts.tail.all fun part => part.head?.any isDigit
  let ends := parts.dropLast.all fun part =>
    part.length == 1 || part.getLast?.any isDigit
  if begins && ends then some parts.flatten else none

/-- A digit to base ten, or the underscore. -/
def isGrouped (c : Char) : Bool := c.isDigit || c == '_'

/-! ## whole numbers -/

/-- The digits below `base`. -/
def digitBelow? (base : Nat) (c : Char) : Option Nat := do
  let n ← Quote.hexDigit? c
  if n < base then some n else none

/-- The number that digits write. -/
def digits? (base : Nat) (cs : List Char) : Option Nat :=
  if cs.isEmpty then none
  else cs.foldlM (fun n c => do some (n * base + (← digitBelow? base c))) 0

/-- A whole number that fits into 128 bits, with or without a sign. -/
def ofWhole (n : Int) : Value :=
  if n < -(Nat.pow 2 127 : Nat) ∨ (Nat.pow 2 128 : Nat) ≤ n then .unreadable else .whole n

/-- A whole number of digits, which may have a sign. -/
def ofDigits (base : Nat) (cs : List Char) : Value :=
  let (negative, magnitude) := Decimal.unsign cs
  match digits? base magnitude with
  | some n => ofWhole (if negative then -(n : Int) else n)
  | none => .unreadable

def isHexDigit (c : Char) : Bool := (Quote.hexDigit? c).isSome

/-- A whole number behind the mark of its base. -/
def based? (base : Nat) (cs : List Char) : Option Value :=
  if cs.all fun c => (digitBelow? base c).isSome || c == '_' then
    (ungroup? isHexDigit cs).map (ofDigits base)
  else none

/-! ## decimal numbers -/

/-- What follows digits, of which there has to be one. -/
def dropDigits? (cs : List Char) : Option (List Char) :=
  if (cs.takeWhile isGrouped).any Char.isDigit then some (cs.dropWhile isGrouped) else none

/-- What follows a fraction, if there is one. -/
def dropFraction? : List Char → Option (List Char)
  | '.' :: r => dropDigits? r
  | r => some r

/-- What follows an exponent, if there is one. -/
def dropExponent? : List Char → Option (List Char)
  | 'e' :: r | 'E' :: r => dropDigits? (Decimal.unsign r).2
  | r => some r

/-- Digits, then a fraction or an exponent or both. -/
def isFractional (cs : List Char) : Bool :=
  (dropDigits? cs >>= dropFraction? >>= dropExponent?) == some []

/-- A double with a sign; a number too large for one cannot be read. -/
def ofMagnitude (negative : Bool) (x : Float) : Value :=
  if x.isInf then .unreadable else .number (if negative then -x else x)

/-- A decimal number, which may have a sign. -/
def ofDecimal? (cs : List Char) : Option Value :=
  let (negative, magnitude) := Decimal.unsign cs
  (Decimal.read? magnitude).map fun d => ofMagnitude negative d.toFloat

/-- A zero stands before further digits. -/
def hasNeedlessZero : List Char → Bool
  | '0' :: c :: _ => isGrouped c
  | _ => false

/-- A number to base ten, which may have a sign. -/
def signed? (cs : List Char) : Option Value :=
  let (negative, magnitude) := Decimal.unsign cs
  let rest := magnitude.dropWhile Char.isDigit
  match magnitude with
  | ['i', 'n', 'f'] => some (.number (if negative then -Exact.infinity else Exact.infinity))
  | ['n', 'a', 'n'] => some (.number (0.0 / 0.0))
  | _ =>
    if magnitude.isEmpty || hasNeedlessZero magnitude then none
    else if rest.any fun c => c == '.' || c == 'e' || c == 'E' then
      if isFractional magnitude then ungroup? Char.isDigit cs >>= ofDecimal? else none
    else if rest.isEmpty || rest.head? == some '_' then
      (ungroup? isHexDigit cs).map (ofDigits 10)
    else none

/-! ## tokens -/

/-- The value that a token writes. -/
def ofToken? (cs : List Char) : Option Value :=
  match cs with
  | ['t', 'r', 'u', 'e'] => some (.truth true)
  | ['f', 'a', 'l', 's', 'e'] => some (.truth false)
  | '0' :: 'x' :: r => based? 16 r
  | '0' :: 'o' :: r => based? 8 r
  | '0' :: 'b' :: r => based? 2 r
  | _ => if Moment.isMoment cs then some .moment else signed? cs

/-- The character ends a token. -/
def isDelimiter (c : Char) : Bool :=
  isBlank c || c == '\n' || c == '\r' || c == '#' || c == '=' || c == ',' || c == '[' || c == ']' ||
    c == '{' || c == '}'

/-- The value at the front of a text. A date and a time may be parted by a space. -/
def read? : Reader Value := fun cs =>
  let token := cs.takeWhile (!isDelimiter ·)
  let rest := cs.dropWhile (!isDelimiter ·)
  let plain := (ofToken? token).map (·, rest)
  match rest with
  | ' ' :: c :: r =>
    if Moment.isDate token && c.isDigit then
      let more := (c :: r).takeWhile (!isDelimiter ·)
      (ofToken? (token ++ ' ' :: more)).map (·, (c :: r).dropWhile (!isDelimiter ·))
    else plain
  | _ => plain

end ArmServo.Toml.Numeral
