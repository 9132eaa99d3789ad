import StoryTape.Script.Grammar
import StoryTape.World

/-!
# State lines

A state line opens a tape: a label and the locations to start with, `LABEL [HOME, king;door]`. The
label is all that stands before the first bracket.
-/

namespace StoryTape.Script

open Text

/-- A state line. -/
structure StateLine where
  /-- The label of the tape. -/
  label : String
  /-- The world it starts in. -/
  world : World
  deriving DecidableEq

/-- A location in brackets: its name and its tags. -/
def readLocation (s : List Char) :
    Option (List Char × List (List Char) × List Char) := do
  let '[' :: s := skipGap s | none
  let s := skipGap s
  let name := s.takeWhile isIdentChar
  if name.isEmpty then none
  let ',' :: s := skipGap (s.dropWhile isIdentChar) | none
  let (tokens, s) := readTokens s
  let ']' :: rest := skipGap s | none
  return (name, tokens, rest)

/-- Locations up to the end of the line. Each takes at least one character, so as many rounds as
there are characters suffice. -/
def readLocations : Nat → List Char → Option (List (List Char × List (List Char)))
  | 0, s => if atEnd s then some [] else none
  | rounds + 1, s =>
    if atEnd s then some []
    else do
      let (name, tokens, rest) ← readLocation s
      return (name, tokens) :: (← readLocations rounds rest)

/-- Read the content of a state line. -/
def parseStateLine (source : String) : Checked StateLine := do
  let label := trim (source.toList.takeWhile (· != '['))
  let body := source.toList.dropWhile (· != '[')
  if label.isEmpty then
    throw { cause := .noLabel (String.ofList (trim source.toList)), phase := .tape }
  match readLocations body.length body with
  | none => throw (malformed .state body)
  | some shapes =>
    let locations ← shapes.mapM fun (name, tokens) =>
      return ⟨String.ofList name, ← setOfTokens .state tokens⟩
    return ⟨String.ofList label, World.ofLocations locations⟩

end StoryTape.Script
