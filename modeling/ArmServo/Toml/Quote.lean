/-!
# Blanks, comments and texts between quotes

Blanks are the space and the tab. A line ends with a line feed, before which a carriage return may
stand; a carriage return alone is nothing. A comment runs to the end of its line and holds no
control character but the tab.

A text is written in one of four forms: between double quotes with escapes, between single quotes
as it stands, and both also over several lines between three quotes. `Quote.read?` reads any of
them and `Quote.write` picks the first form that suits.
-/

namespace ArmServo.Toml

/-! ## blanks and comments -/

def isBlank (c : Char) : Bool := c == ' ' || c == '\t'

/-- A control character other than the tab. -/
def isControl (c : Char) : Bool := (decide (c.toNat < 0x20) && c != '\t') || c.toNat == 0x7f

/-- The text from its first character on that is no blank. -/
def dropBlanks (cs : List Char) : List Char := cs.dropWhile isBlank

/-- The text from its first character on that lies in no blank, comment or line end. -/
def skip? (comment : Bool) : List Char → Option (List Char)
  | [] => some []
  | '\n' :: r => skip? false r
  | '\r' :: '\n' :: r => skip? false r
  | c :: r =>
    if comment then if isControl c then none else skip? true r
    else if isBlank c then skip? false r
    else if c == '#' then skip? true r
    else some (c :: r)

/-- The text after the end of the line, before which only blanks and a comment may stand. -/
def endLine? (comment : Bool) : List Char → Option (List Char)
  | [] => some []
  | '\n' :: r => some r
  | '\r' :: '\n' :: r => some r
  | c :: r =>
    if comment then if isControl c then none else endLine? true r
    else if isBlank c then endLine? false r
    else if c == '#' then endLine? true r
    else none

/-! ## texts -/

/-- Splits off what is read from the front of a text. -/
abbrev Reader (β : Type) := List Char → Option (β × List Char)

namespace Quote

/-! ## reading -/

def hexDigit? (c : Char) : Option Nat :=
  if '0' ≤ c ∧ c ≤ '9' then some (c.toNat - '0'.toNat)
  else if 'a' ≤ c ∧ c ≤ 'f' then some (c.toNat - 'a'.toNat + 10)
  else if 'A' ≤ c ∧ c ≤ 'F' then some (c.toNat - 'A'.toNat + 10)
  else none

/-- The character with the given code point, written in hexadecimal. -/
def ofHex? (digits : List Char) : Option Char := do
  let n ← digits.foldlM (fun n d => do return n * 16 + (← hexDigit? d)) 0
  if n.isValidChar then some (Char.ofNat n) else none

/-- What stands for a character after a backslash. -/
def ofLetter? : Char → Option Char
  | 'b' => some '\x08'
  | 't' => some '\t'
  | 'n' => some '\n'
  | 'e' => some '\x1b'
  | 'f' => some '\x0c'
  | 'r' => some '\r'
  | '"' => some '"'
  | '\\' => some '\\'
  | _ => none

/-- Puts a character in front of what the rest reads as. -/
def put (c : Option Char) (rest : Option (List Char × List Char)) :
    Option (List Char × List Char) :=
  match c, rest with
  | some c, some (text, r) => some (c :: text, r)
  | _, _ => none

/-- After the opening quote of a text with escapes. -/
def readBasic : Reader (List Char)
  | [] => none
  | '"' :: r => some ([], r)
  | '\\' :: 'x' :: a :: b :: r => put (ofHex? [a, b]) (readBasic r)
  | '\\' :: 'u' :: a :: b :: c :: d :: r => put (ofHex? [a, b, c, d]) (readBasic r)
  | '\\' :: 'U' :: a :: b :: c :: d :: e :: f :: g :: h :: r =>
    put (ofHex? [a, b, c, d, e, f, g, h]) (readBasic r)
  | '\\' :: c :: r => put (ofLetter? c) (readBasic r)
  | c :: r => put (if isControl c || c == '\\' then none else some c) (readBasic r)

/-- After the opening quote of a text as it stands. -/
def readLiteral : Reader (List Char)
  | [] => none
  | '\'' :: r => some ([], r)
  | c :: r => put (if isControl c then none else some c) (readLiteral r)

/-- The end of a text over several lines: three quotes, before which one or two more belong to the
text. -/
def closing? (quote : Char) (cs : List Char) : Option (List Char × List Char) :=
  let n := ((cs.take 5).takeWhile (· == quote)).length
  if 3 ≤ n then some (List.replicate (n - 3) quote, cs.drop n) else none

/-- A backslash at the end of a line joins it with the next text: blanks and line ends after it are
left out. -/
inductive Joining where
  | off
  /-- behind the backslash, still on its line -/
  | line
  /-- behind the end of that line -/
  | lines

/-- After the opening quotes of a text with escapes over several lines. -/
def readLines : Joining → Reader (List Char)
  | _, [] => none
  | .line, '\n' :: r => readLines .lines r
  | .line, '\r' :: '\n' :: r => readLines .lines r
  | .line, c :: r => if isBlank c then readLines .line r else none
  | .lines, '\n' :: r => readLines .lines r
  | .lines, '\r' :: '\n' :: r => readLines .lines r
  | .off, '\r' :: '\n' :: r => put (some '\r') (put (some '\n') (readLines .off r))
  | _, '\\' :: '\n' :: r => readLines .lines r
  | _, '\\' :: '\r' :: '\n' :: r => readLines .lines r
  | _, '\\' :: 'x' :: a :: b :: r => put (ofHex? [a, b]) (readLines .off r)
  | _, '\\' :: 'u' :: a :: b :: c :: d :: r => put (ofHex? [a, b, c, d]) (readLines .off r)
  | _, '\\' :: 'U' :: a :: b :: c :: d :: e :: f :: g :: h :: r =>
    put (ofHex? [a, b, c, d, e, f, g, h]) (readLines .off r)
  | _, '\\' :: c :: r =>
    if isBlank c then readLines .line r else put (ofLetter? c) (readLines .off r)
  | joining, c :: r =>
    match closing? '"' (c :: r), joining with
    | some e, _ => some e
    | none, .lines =>
      if isBlank c then readLines .lines r
      else put (if isControl c || c == '\\' then none else some c) (readLines .off r)
    | none, _ =>
      put (if (isControl c && c != '\n') || c == '\\' then none else some c) (readLines .off r)

/-- After the opening quotes of a text over several lines as it stands. -/
def readLiteralLines : Reader (List Char)
  | [] => none
  | '\r' :: '\n' :: r => put (some '\r') (put (some '\n') (readLiteralLines r))
  | c :: r =>
    match closing? '\'' (c :: r) with
    | some e => some e
    | none => put (if isControl c && c != '\n' then none else some c) (readLiteralLines r)

/-- A line end right behind the opening quotes is left out. -/
def dropLineEnd : List Char → List Char
  | '\n' :: r => r
  | '\r' :: '\n' :: r => r
  | r => r

/-- A text in the form that its quotes show. -/
def read? : Reader (List Char)
  | '"' :: '"' :: '"' :: r => readLines .off (dropLineEnd r)
  | '"' :: r => readBasic r
  | '\'' :: '\'' :: '\'' :: r => readLiteralLines (dropLineEnd r)
  | '\'' :: r => readLiteral r
  | _ => none

/-! ## writing -/

inductive Form where
  | basic
  | literal
  | lines
  | literalLines
deriving DecidableEq, Repr

/-- The text holds more than two quotes in a row. -/
def hasRun (quote : Char) : List Char → Bool
  | [] => false
  | c :: r => (c == quote && r.take 2 == [quote, quote]) || hasRun quote r

/-- The first form in which the text stands without escapes, tabs apart, and otherwise one with
escapes, over several lines if the text has several. -/
def Form.of (s : List Char) : Form :=
  let escapes := s.any fun c => isControl c && c != '\n'
  let newline := s.contains '\n'
  if !escapes && !newline && !s.contains '\\' && !s.contains '"' then basic
  else if !escapes && !newline && !s.contains '\'' then literal
  else if !escapes && !s.contains '\\' && !hasRun '"' s then lines
  else if !escapes && !hasRun '\'' s then literalLines
  else if newline then lines
  else basic

/-- A digit to base sixteen, in upper case. -/
def hexLetter (n : Nat) : Char := (Nat.digitChar n).toUpper

/-- How a character other than the double quote and the line feed is written in a form with
escapes. -/
def escape (c : Char) : List Char :=
  match c with
  | '\\' => ['\\', '\\']
  | '\x08' => ['\\', 'b']
  | '\t' => ['\\', 't']
  | '\x0c' => ['\\', 'f']
  | '\r' => ['\\', 'r']
  | c =>
    if isControl c then ['\\', 'u', '0', '0', hexLetter (c.toNat / 16), hexLetter (c.toNat % 16)]
    else [c]

/-- A text on one line with escapes, without its quotes. -/
def escapeLine : List Char → List Char
  | [] => []
  | '"' :: r => '\\' :: '"' :: escapeLine r
  | '\n' :: r => '\\' :: 'n' :: escapeLine r
  | c :: r => escape c ++ escapeLine r

/-- A text over several lines with escapes, without its quotes: of each run of quotes the third is
escaped. `run` counts the quotes so far. -/
def escapeLines (run : Nat) : List Char → List Char
  | [] => []
  | '"' :: r =>
    if run = 2 then '\\' :: '"' :: escapeLines 0 r else '"' :: escapeLines (run + 1) r
  | '\n' :: r => '\n' :: escapeLines 0 r
  | c :: r => escape c ++ escapeLines 0 r

/-- The text between three quotes on each side; if it has several lines, it begins on a new one. -/
def surround (quote : Char) (body : List Char) : List Char :=
  let quotes := [quote, quote, quote]
  quotes ++ (if body.contains '\n' then ['\n'] else []) ++ body ++ quotes

/-- The text between the quotes of a form. -/
def Form.write (s : List Char) : Form → List Char
  | basic => ['"'] ++ escapeLine s ++ ['"']
  | literal => ['\''] ++ s ++ ['\'']
  | lines => surround '"' (escapeLines 0 s)
  | literalLines => surround '\'' s

def write (s : List Char) : List Char := (Form.of s).write s

end Quote

end ArmServo.Toml
