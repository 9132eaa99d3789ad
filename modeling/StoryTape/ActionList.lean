import StoryTape.Rule.Accept
import StoryTape.Rule.Expand
import StoryTape.Text.Lowercase

/-!
# Actions

The actions on offer in a scene are the accepted rules of the expanded rulebook, in order. Each is
found by its description, letter case aside, so a description that is taken already is made
different by the word `duplicate`, as often as needed.
-/

namespace StoryTape

open Text

/-- Something the player can do. -/
structure Action where
  /-- What the player reads. -/
  description : String
  /-- The name of the text shown. -/
  text : Option String
  /-- What happens to the world. -/
  operations : List Operation
  deriving DecidableEq, Repr

/-- Actions in the order they are offered. -/
structure ActionList where
  /-- The actions. -/
  entries : List Action
  deriving DecidableEq, Repr

namespace ActionList

/-- No actions. -/
def empty : ActionList := ⟨[]⟩

/-- The action of the given description, ignoring case. -/
def find? (actions : ActionList) (description : String) : Option Action :=
  actions.entries.find? fun a => lowerText a.description == lowerText description

/-- What is added to a description that is taken. -/
def duplicateMark : String := " duplicate"

/-- A description with up to `tries` marks, the fewest that make it new. -/
def freshDescription (actions : ActionList) : Nat → String → String
  | 0, description => description
  | tries + 1, description =>
    if (actions.find? description).isSome then
      freshDescription actions tries (description ++ duplicateMark)
    else description

/-- Add an action under a new description. As many marks as there are actions suffice, since the
marked descriptions differ from each other. -/
def push (actions : ActionList) (a : Action) : ActionList :=
  let description := actions.freshDescription actions.entries.length a.description
  ⟨actions.entries ++ [{ a with description }]⟩

end ActionList

/-- Everything the player can do in a scene of a world. -/
def offeredActions (scene : String) (w : World) (rules : List Rule) : Expanded ActionList := do
  let concrete ← expandRules rules w
  concrete.foldlM (fun actions r => do
    match ← (r.accept scene w).toExpanded with
    | none => return actions
    | some a => return actions.push ⟨r.description, a.text, a.operations⟩) .empty

end StoryTape
