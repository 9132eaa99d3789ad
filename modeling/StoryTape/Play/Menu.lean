import StoryTape.Play.Playthrough
import StoryTape.Text.Blank

/-!
# Menus

A menu is what the player can pick from by number: the choices of the current dialogue node or,
where there are none, the actions of the scene.
-/

namespace StoryTape

open Text

/-- What the player can pick from. -/
inductive Menu where
  /-- Choices of a dialogue node, with their places in it. -/
  | choices (steps : List (Nat × ChoiceStep))
  /-- Actions of the scene. -/
  | actions (actions : ActionList)

/-- Why nothing was picked. -/
inductive PickError where
  /-- No entry has the number. -/
  | noSuchEntry (number : Nat)
  /-- The turn failed. -/
  | script (error : ScriptError)
  deriving Repr

/-- The wording of a failed pick. -/
def PickError.message : PickError → String
  | noSuchEntry number =>
    let number := countText number
    s!"nothing is numbered {number}"
  | script e => e.describe

namespace Menu

/-- What can be picked now. -/
def current (p : Playthrough) : Expanded Menu :=
  match p.choices with
  | [] => p.actions.map .actions
  | steps => .ok (.choices steps)

/-- What the player reads of a choice: its label, or the name of its node when it has none. -/
def choiceLabel (p : Playthrough) (node : DialogueNode) (index : Nat) (step : ChoiceStep) :
    String :=
  match node.choices[index]? with
  | none => step.next
  | some c =>
    match p.text c.label with
    | .ok label => label
    | .error _ => step.next

/-- What the player reads, entry by entry. -/
def labels (m : Menu) (p : Playthrough) : List String :=
  match m with
  | .choices steps =>
    match p.node? with
    | none => []
    | some (_, node) => steps.map fun (index, step) => choiceLabel p node index step
  | .actions offered =>
    offered.entries.map fun a => String.ofList (trimEnd a.description.toList)

/-- The entry of a number, counted from one. -/
def entry? {α : Type} (entries : List α) : Nat → Option α
  | 0 => none
  | number + 1 => entries[number]?

/-- Play the entry of a number. Gives the keys of the lines shown and the operations applied. -/
def pick (m : Menu) (p : Playthrough) (number : Nat) :
    Except PickError (Playthrough × List String × List Operation) :=
  match m with
  | .choices steps =>
    match entry? steps number with
    | none => .error (.noSuchEntry number)
    | some (_, step) =>
      match (p.take step : Checked (Playthrough × List String)) with
      | .ok (p, keys) => .ok (p, keys, step.operations)
      | .error e => .error (.script e)
  | .actions offered =>
    match entry? offered.entries number with
    | none => .error (.noSuchEntry number)
    | some a =>
      match (p.perform a : Checked (Playthrough × List String)) with
      | .ok (p, keys) => .ok (p, keys, a.operations)
      | .error e => .error (.script e)

end Menu

end StoryTape
