import StoryTape.Rule
import StoryTape.World

/-!
# Accepting rules

A rule is tried in one scene of a world. Either it is refused, or it is accepted with the
operations that playing it applies: the change of scene, the target, the cost, the gain, the
context and the payload, in this order. Only a gain that cannot be taken although the cost holds
it is an error.
-/

namespace StoryTape

open Text

/-- What an accepted rule shows and does. -/
structure Accepted where
  /-- The name of the text to show. -/
  text : Option String
  /-- What happens to the world. -/
  operations : List Operation
  deriving DecidableEq, Repr

/-- The operations of all tags of a set one after the other, if no tag is refused. -/
def forAllTags (f : Tag → Option (List Operation)) (s : TagSet) : Option (List Operation) :=
  (s.tags.mapM f).map List.flatten

/-- Look for a tag among those held in one location. -/
def checkHeld (held : TagSet) (location : String) (t : Tag) : Option (List Operation) :=
  match t.mode, held.hasValue t.value with
  | .plain, true => some [.assertTagIn t.value location, .removeTag t.value location]
  | .required, true => some [.assertTagIn t.value location]
  | .forbidden, false => some [.assertNoTag t.value location]
  | _, _ => none

/-- Take a tag in hand: it has no sign and is not in hand already. -/
def takeInHand (drag : TagSet) (t : Tag) : Option (List Operation) :=
  if !drag.hasValue t.value && t.mode == .plain then
    some [.assertNoTag t.value dragName, .appendTag t.value dragName]
  else none

namespace World

/-- Whether a level passes a bound or lies in a range. -/
def passes (t : Tag) (level : Int) : Bool :=
  if t.isGreater then level < maxLevel && t.meter.low ≤ level
  else if t.isLower then level ≤ t.meter.high && minLevel < level
  else t.meter.low ≤ level && level ≤ t.meter.high

/-- The tags of the scenes whose levels pass a comparison, with the locations they lie in. Their
identifiers start with that of the comparison. -/
def compared (w : World) (t : Tag) : List (String × String) :=
  w.scenes.flatMap fun l =>
    (l.tags.tags.filter fun test =>
        passes t test.meter.value && test.hasMeter &&
          t.value.toList.isPrefixOf test.value.toList).map
      fun test => (test.value, l.name)

/-- A comparison: one level has to pass it, or none may. -/
def checkComparison (w : World) (t : Tag) : Option (List Operation) :=
  let found := w.compared t
  match t.mode with
  | .plain => some []
  | .required =>
    if found.isEmpty then none
    else some (found.map fun (value, location) => .assertTagIn value location)
  | .forbidden => if found.isEmpty then some [] else none

/-- The scenes that hold an identifier. -/
def holders (w : World) (value : String) : List Location :=
  w.scenes.filter (·.tags.hasValue value)

/-- The scene that a context tag is found in: the current one if it holds the tag, else the
first. -/
def holder? (w : World) (scene value : String) : Option Location :=
  let holders := w.holders value
  (holders.reverse.find? (sameName ·.name scene)).or holders.head?

/-- The record that no scene holds an identifier. -/
def assertNowhere (w : World) (value : String) : List Operation :=
  w.scenes.map fun l => .assertNoTag value l.name

/-- A context tag that is no comparison: found in some scene, or in none. -/
def checkContext (w : World) (scene : String) (t : Tag) : Option (List Operation) :=
  match t.mode, w.holder? scene t.value with
  | .plain, some l => some [.assertTagIn t.value l.name, .removeTag t.value l.name]
  | .required, some l => some [.assertTagIn t.value l.name]
  | .forbidden, none => some (w.assertNowhere t.value)
  | _, _ => none

/-- A context tag of either sort. -/
def checkAround (w : World) (scene : String) (t : Tag) : Option (List Operation) :=
  if t.isComparison then w.checkComparison t else w.checkContext scene t

/-- Lay out a tag in its own location, or in the scene: it has no sign, is not bound to the
player's hands and does not lie there already. -/
def layOut (w : World) (scene : String) (t : Tag) : Option (List Operation) :=
  let place := t.location.getD scene
  if t.mode != .plain || t.location.any isDrag then none
  else if (w.holders t.value).any (sameName ·.name place) then none
  else
    let clear := w.scenes.filter fun l => !l.tags.hasValue t.value
    some ((clear.map fun l => .assertNoTag t.value l.name) ++ [.appendTag t.value place])

end World

namespace Rule

/-- The change of scene a target asks for; its location has to be one of the world. -/
def moveTo (w : World) (target : Tag) : Option (List Operation) :=
  match target.location with
  | none => some []
  | some name => (w.location? name).map fun l => [.goto l.name]

/-- The record of a target found in the scene, and its removal when it has no sign. -/
def meet (target : Tag) (scene : String) : List Operation :=
  .assertTagIn target.value scene ::
    if target.mode == .plain then [.removeTag target.value scene] else []

/-- The gains of a rule. The first that cannot be taken refuses the rule, or is an error when the
cost holds its identifier. -/
def takeGains (r : Rule) (drag : TagSet) : Checked (Option (List Operation)) :=
  match r.gain.tags.find? fun t => (takeInHand drag t).isNone with
  | none => .ok (forAllTags (takeInHand drag) r.gain)
  | some t =>
    if r.cost.hasValue t.value then
      .error { cause := .gainIsPaid t.raw r.target.raw, phase := .rule }
    else .ok none

/-- What goes before the gains: the scene exists and holds the target, and the cost can be paid.
Gives the scene's name as spelled in the world and the operations so far. -/
def enterScene (r : Rule) (scene : String) (w : World) : Option (String × List Operation) := do
  let here ← w.location? scene
  if !here.tags.hasValue r.target.value || r.target.mode == .forbidden then none
  let move ← moveTo w r.target
  let (held, place) := if r.drag then (w.drag, dragName) else (here.tags, here.name)
  let paid ← forAllTags (checkHeld held place) r.cost
  return (here.name, move ++ meet r.target here.name ++ paid)

/-- Try a rule in a scene of a world. -/
def accept (r : Rule) (scene : String) (w : World) : Checked (Option Accepted) :=
  match r.enterScene scene w with
  | none => .ok none
  | some (here, opening) => do
    let gained ← r.takeGains w.drag
    return do
      let gained ← gained
      let around ← forAllTags (w.checkAround here) r.context
      let laid ← forAllTags (w.layOut here) r.payload
      return ⟨r.text, opening ++ gained ++ around ++ laid⟩

end Rule

end StoryTape
