import StoryTape.Text.Blank
import StoryTape.Text.Lowercase
import StoryTape.Text.Numeral

/-!
# Commands

What the player types: the number of an entry, or a word. Blanks around a command and the case of
its letters do not count.
-/

namespace StoryTape

open Text

/-- A command of the player. -/
inductive Command where
  /-- Play the entry of a number. -/
  | choose (number : Nat)
  | help
  | quit
  | state
  | undo
  /-- No command; the text is trimmed. -/
  | unknown (text : String)
  deriving DecidableEq, Repr

namespace Command

/-- The words of each command. -/
def words : List (String × Command) :=
  [("undo", undo), ("u", undo), ("back", undo), ("state", state), ("s", state), ("world", state),
    ("help", help), ("h", help), ("?", help), ("quit", quit), ("q", quit), ("exit", quit)]

/-- Read a command. -/
def parse (input : String) : Command :=
  let text := trim input.toList
  match readCount text with
  | some number => choose number
  | none => (words.lookup (String.ofList (lower text))).getD (unknown (String.ofList text))

end Command

end StoryTape
