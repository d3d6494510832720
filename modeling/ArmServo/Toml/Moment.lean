import ArmServo.Decimal.Read

/-!
# Dates and times

A date of the calendar, a time of day, or a date followed by a time, which may then state its
offset. Only the form matters here: nothing in a configuration is a moment.
-/

namespace ArmServo.Toml.Moment

/-- The text writes a number from `low` to `high`. -/
def isWithin (low high : Nat) (cs : List Char) : Bool :=
  match Decimal.natural? cs with
  | some n => decide (low ≤ n) && decide (n ≤ high)
  | none => false

def isLeapYear (year : Nat) : Bool :=
  year % 4 == 0 && (year % 100 != 0 || year % 400 == 0)

def daysIn (year month : Nat) : Nat :=
  if month = 2 then if isLeapYear year then 29 else 28
  else if month = 4 ∨ month = 6 ∨ month = 9 ∨ month = 11 then 30
  else 31

/-- Year, month and day, as in `1979-05-27`. -/
def isDate : List Char → Bool
  | [y₁, y₂, y₃, y₄, '-', m₁, m₂, '-', d₁, d₂] =>
    match Decimal.natural? [y₁, y₂, y₃, y₄], Decimal.natural? [m₁, m₂] with
    | some year, some month =>
      decide (1 ≤ month) && decide (month ≤ 12) && isWithin 1 (daysIn year month) [d₁, d₂]
    | _, _ => false
  | _ => false

/-- An offset: `Z`, or a sign with hours and minutes. -/
def isOffset : List Char → Bool
  | ['Z'] | ['z'] => true
  | [s, h₁, h₂, ':', m₁, m₂] =>
    (s == '+' || s == '-') && isWithin 0 23 [h₁, h₂] && isWithin 0 59 [m₁, m₂]
  | _ => false

/-- Nothing follows a time but an offset where one is allowed. -/
def endsTime (offset : Bool) (r : List Char) : Bool := r.isEmpty || (offset && isOffset r)

/-- What may follow hours and minutes: seconds, perhaps with a fraction, and an offset. -/
def endsMinutes (offset : Bool) : List Char → Bool
  | ':' :: s₁ :: s₂ :: r =>
    isWithin 0 60 [s₁, s₂] &&
      match r with
      | '.' :: f =>
        !(f.takeWhile Char.isDigit).isEmpty && endsTime offset (f.dropWhile Char.isDigit)
      | r => endsTime offset r
  | r => endsTime offset r

/-- Hours and minutes, perhaps seconds and a fraction of them, as in `07:32` or `07:32:00.5`;
`offset` tells whether an offset may follow. -/
def isTime (offset : Bool) : List Char → Bool
  | h₁ :: h₂ :: ':' :: m₁ :: m₂ :: r =>
    isWithin 0 23 [h₁, h₂] && isWithin 0 59 [m₁, m₂] && endsMinutes offset r
  | _ => false

/-- The text is a date, a time, or both with `T` or a space in between. -/
def isMoment (cs : List Char) : Bool :=
  if isDate (cs.take 10) then
    match cs.drop 10 with
    | [] => true
    | c :: r => (c == 'T' || c == 't' || c == ' ') && isTime true r
  else isTime false cs

end ArmServo.Toml.Moment
