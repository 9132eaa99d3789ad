/-!
# Decimal numerals

Two kinds of numeral are read. A count is an unsigned numeral below `2 ^ 64`, a level a signed
numeral of sixteen bits; both allow a leading plus sign and any number of leading zeros. Counts
and levels are written with the fewest digits.
-/

namespace StoryTape.Text

/-- The value of a digit string, most significant digit first. -/
def digitsValue (s : List Char) : Nat := s.foldl (fun n c => 10 * n + (c.toNat - '0'.toNat)) 0

/-- A nonempty string of ASCII digits as a number. -/
def readDigits (s : List Char) : Option Nat :=
  if s ≠ [] ∧ s.all Char.isDigit then some (digitsValue s) else none

/-- A text without the plus sign it may start with. -/
def dropPlus : List Char → List Char
  | '+' :: s => s
  | s => s

/-- How many counts there are, `2 ^ 64`. -/
def wordSize : Nat := 18446744073709551616

/-- The number of a count: an optional plus sign and digits, below `2 ^ 64`. -/
def readCount (s : List Char) : Option Nat :=
  (readDigits (dropPlus s)).filter (· < wordSize)

/-- The least level. -/
def minLevel : Int := -32768

/-- The greatest level. -/
def maxLevel : Int := 32767

/-- The number of a level: an optional sign and digits, within sixteen bits. -/
def readLevel (s : List Char) : Option Int :=
  let number : Option Int := match s with
    | '-' :: digits => (readDigits digits).map fun n => -(n : Int)
    | _ => (readDigits (dropPlus s)).map fun n => (n : Int)
  number.filter fun n => minLevel ≤ n && n ≤ maxLevel

/-- A number brought into the range of levels. -/
def clampLevel (n : Int) : Int := max minLevel (min maxLevel n)

/-- The shortest decimal text of a count. -/
def writeCount (n : Nat) : List Char := Nat.toDigits 10 n

/-- The shortest decimal text of a number, with a minus sign when it is negative. -/
def writeLevel (n : Int) : List Char :=
  if n < 0 then '-' :: writeCount n.natAbs else writeCount n.natAbs

/-- The decimal text of a count as a string. -/
def countText (n : Nat) : String := String.ofList (writeCount n)

end StoryTape.Text
