import StoryTape.Dialogue
import StoryTape.Rule.Accept

/-!
# Accepting choices

A choice is accepted like a small rule whose cost is paid in hand. Unlike a rule, it wants a
context tag in exactly one scene and a payload tag in none.
-/

namespace StoryTape

open Text

/-- What taking a choice does. -/
structure ChoiceStep where
  /-- The node it leads to. -/
  next : String
  /-- What happens to the world. -/
  operations : List Operation
  deriving DecidableEq, Repr

namespace World

/-- A context tag of a choice: found in one scene only, or in none. -/
def checkOnce (w : World) (t : Tag) : Option (List Operation) :=
  match t.mode, w.holders t.value with
  | .plain, [l] => some [.assertTagIn t.value l.name, .removeTag t.value l.name]
  | .required, [l] => some [.assertTagIn t.value l.name]
  | .forbidden, [] => some (w.assertNowhere t.value)
  | _, _ => none

/-- Lay out a tag of a choice: it has no sign, is not bound to the player's hands and lies in no
scene. -/
def layOutNew (w : World) (scene : String) (t : Tag) : Option (List Operation) :=
  if t.mode != .plain || t.location.any isDrag || !(w.holders t.value).isEmpty then none
  else some (w.assertNowhere t.value ++ [.appendTag t.value (t.location.getD scene)])

end World

/-- Try a choice in a scene of a world. -/
def Choice.accept (c : Choice) (scene : String) (w : World) : Option ChoiceStep := do
  let paid ← forAllTags (checkHeld w.drag dragName) c.cost
  let gained ← forAllTags (takeInHand w.drag) c.gain
  let around ← forAllTags w.checkOnce c.context
  let laid ← forAllTags (w.layOutNew scene) c.payload
  return ⟨c.next, paid ++ gained ++ around ++ laid⟩

/-- The choices that can be taken, with their places in the list. -/
def acceptChoices (choices : List Choice) (scene : String) (w : World) :
    List (Nat × ChoiceStep) :=
  choices.zipIdx.filterMap fun (c, i) => (c.accept scene w).map fun step => (i, step)

end StoryTape
