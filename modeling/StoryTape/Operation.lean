/-!
# Operations

What playing a rule or a choice does to the world, one step at a time. Assertions record what was
found when the rule was accepted and change nothing.
-/

namespace StoryTape

/-- A step of a turn. -/
inductive Operation where
  /-- The tag was found in the location. -/
  | assertTagIn (tag location : String)
  /-- The tag was not found in the location. -/
  | assertNoTag (tag location : String)
  /-- Put the tag into the location. -/
  | appendTag (tag location : String)
  /-- Take the tag out of the location. -/
  | removeTag (tag location : String)
  /-- Show a text. -/
  | pushText (key : String)
  /-- Show a scene. -/
  | pushScene (scene : String)
  /-- Move to a scene. -/
  | goto (scene : String)
  /-- Reach a goal. -/
  | unlockGoal (goal : String)
  deriving DecidableEq, Repr

namespace Operation

/-- Whether the operation only records what was found. -/
def isAssertion : Operation → Bool
  | assertTagIn .. | assertNoTag .. => true
  | _ => false

/-- The operation in words. -/
def describe : Operation → String
  | assertTagIn tag location => s!"assert {tag} in {location}"
  | assertNoTag tag location => s!"assert no {tag} in {location}"
  | appendTag tag location => s!"append {tag} to {location}"
  | removeTag tag location => s!"remove {tag} from {location}"
  | pushText key => s!"push text {key}"
  | pushScene scene => s!"push scene {scene}"
  | goto scene => s!"goto {scene}"
  | unlockGoal goal => s!"unlock goal {goal}"

end Operation

end StoryTape
