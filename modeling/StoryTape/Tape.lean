import StoryTape.Rule
import StoryTape.World
import StoryTape.TextBook

/-!
# Tapes

A tape is a compiled chapter: its label, the world it starts in, its rules and its texts. Labels
are looked up ignoring ASCII case.
-/

namespace StoryTape

open Text

/-- A compiled chapter. -/
structure Tape where
  /-- The label. -/
  label : String
  /-- The world at the start. -/
  world : World
  /-- The rules, in the order written. -/
  rules : List Rule := []
  /-- The texts. -/
  text : TextBook := {}
  deriving DecidableEq

namespace Tape

/-- Whether two lists of rules agree rule by rule. -/
def rulesAgree : List Rule → List Rule → Bool
  | [], [] => true
  | a :: as, b :: bs => a.agrees b && rulesAgree as bs
  | _, _ => false

/-- Whether two tapes are alike: same label and texts, worlds with the same canonical text, and
rules that agree. -/
def sameAs (a b : Tape) : Bool :=
  a.label == b.label && a.world.sameAs b.world && rulesAgree a.rules b.rules && a.text == b.text

/-- The first tape of the given label. -/
def find? (tapes : List Tape) (label : String) : Option Tape :=
  tapes.find? (sameName ·.label label)

end Tape

end StoryTape
