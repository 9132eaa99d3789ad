import StoryTape.Text.Search
import StoryTape.Text.Numeral
import StoryTape.Error

/-!
# Meters

A tag may carry numbers: a plain level (`gold.5`), a range (`gold.1..5`), a step (`gold.++2`) or a
bound (`gold.<=5`). A `Meter` keeps four levels; those that a tag does not use stand at the end of
the scale.
-/

namespace StoryTape

open Text

/-- The numbers of a tag. -/
structure Meter where
  /-- The least level a range or a lower bound admits. -/
  low : Int := minLevel
  /-- The greatest level a range or an upper bound admits. -/
  high : Int := maxLevel
  /-- The level of the tag itself. -/
  value : Int := minLevel
  /-- What a step adds; at the end of the scale it marks a bound. -/
  step : Int := 0
  deriving DecidableEq, Repr

namespace Meter

/-- No numbers at all, which is also an open range. -/
def unset : Meter := {}

/-- A level of its own. -/
def ofValue (value : Int) : Meter := { value }

/-- A step by `step`. -/
def ofStep (step : Int) : Meter := { value := maxLevel, step }

/-- At most `high`. -/
def atMost (high : Int) : Meter := { high, value := maxLevel, step := minLevel }

/-- At least `low`. -/
def atLeast (low : Int) : Meter := { low, value := maxLevel, step := maxLevel }

/-- From `low` to `high`. -/
def between (low high : Int) : Meter := { low, high }

/-- Whether the level is a number and not the end of the scale. -/
def hasValue (m : Meter) : Bool := minLevel < m.value && m.value < maxLevel

end Meter

/-- A text cut before the numeral it ends with, minus sign included. -/
def splitNumeral (s : List Char) : List Char × List Char :=
  let digits := (s.reverse.takeWhile Char.isDigit).reverse
  if digits.isEmpty then (s, [])
  else
    match s.reverse.dropWhile Char.isDigit with
    | '-' :: rest => (rest.reverse, '-' :: digits)
    | rest => (rest.reverse, digits)

/-- The number written after a marker; one when nothing is written. -/
def readStep (tag : String) (marker rest : List Char) : Except Cause Int :=
  if rest.isEmpty then .ok 1
  else
    match readLevel rest with
    | some n => .ok n
    | none => .error (.notANumber tag (String.ofList marker) (String.ofList rest))

/-- Split a tag into identifier and meter. The last occurrence of a marker counts, and the
markers are looked for in the order `..`, `++`, `--`, `<=`, `>=`. A plain level stays part of the
identifier. -/
def splitMeter (tag : String) (body : List Char) : Except Cause (List Char × Meter) :=
  if let some (name, rest) := splitLast ['.', '.'] body then
    if rest.isEmpty then .ok (name, .unset)
    else
      let (name, numeral) := splitNumeral name
      match readLevel numeral, readLevel rest with
      | some low, some high => .ok (name, .between low high)
      | _, _ => .ok (name, .between maxLevel maxLevel)
  else if let some (name, rest) := splitLast ['+', '+'] body then do
    let step ← readStep tag ['+', '+'] rest
    return (name, .ofStep step)
  else if let some (name, rest) := splitLast ['-', '-'] body then do
    let step ← readStep tag ['-', '-'] rest
    if step = minLevel then throw (.decrementOutOfRange tag)
    return (name, .ofStep (-step))
  else if let some (name, rest) := splitLast ['<', '='] body then do
    let high ← readStep tag ['<', '='] rest
    return (name, .atMost high)
  else if let some (name, rest) := splitLast ['>', '='] body then do
    let low ← readStep tag ['>', '='] rest
    return (name, .atLeast low)
  else
    let (name, numeral) := splitNumeral body
    if name.isEmpty then .ok (body, .ofValue minLevel)
    else .ok (body, .ofValue ((readLevel numeral).getD minLevel))

end StoryTape
