import StoryTape.Tape
import StoryTape.ActionList
import StoryTape.Dialogue.Accept
import StoryTape.TextBook.Reading

/-!
# Playthroughs

A playthrough is a tape being played: the current frame and the frames before it. Every action or
choice adds a frame, a failing one changes nothing, and undoing a turn takes the last frame off.
The first frame is never taken off.
-/

namespace StoryTape

/-- The world after a turn. -/
structure Frame where
  /-- The world. -/
  world : World
  /-- The scene the player is in. -/
  scene : String
  /-- The dialogue node whose choices are on offer. -/
  node : Option String := none
  deriving DecidableEq

/-- A tape being played. -/
structure Playthrough where
  /-- The tape. -/
  tape : Tape
  /-- The current frame. -/
  current : Frame
  /-- The frames before it, the latest first. -/
  past : List Frame := []
  deriving DecidableEq

namespace Playthrough

/-- The scene a tape starts in: the location asked for, or the first that the player can be in. -/
def startScene (t : Tape) : Option String → Checked String
  | some name =>
    match t.world.location? name with
    | some l => .ok l.name
    | none => .error { cause := .noLocation t.label name, phase := .play }
  | none =>
    match t.world.locations.find? fun l => !isReserved l.name with
    | some l => .ok l.name
    | none => .error { cause := .noScene t.label, phase := .play }

/-- Start a tape. -/
def start (t : Tape) (scene : Option String) : Checked Playthrough := do
  let scene ← startScene t scene
  return { tape := t, current := { world := t.world, scene } }

/-- The current world. -/
def world (p : Playthrough) : World := p.current.world

/-- The current scene. -/
def scene (p : Playthrough) : String := p.current.scene

/-- The texts of the tape. -/
def book (p : Playthrough) : TextBook := p.tape.text

/-- The turns played since the start. -/
def turn (p : Playthrough) : Nat := p.past.length

/-- The dialogue node whose choices are on offer, with its name. -/
def node? (p : Playthrough) : Option (String × DialogueNode) := do
  let name ← p.current.node
  let node ← p.book.route? name
  return (name, node)

/-- The actions on offer. -/
def actions (p : Playthrough) : Expanded ActionList :=
  offeredActions p.scene p.world p.tape.rules

/-- The choices of the current node that can be taken, with their places in it. -/
def choices (p : Playthrough) : List (Nat × ChoiceStep) :=
  match p.node? with
  | none => []
  | some (_, node) => acceptChoices node.choices p.scene p.world

/-- Show a reading: its operations are applied. -/
def showReading (w : World) (reading : Reading) : Checked (World × List String) := do
  let w ← w.apply reading.operations
  return (w, reading.keys)

/-- Show the lines of keys one after the other. -/
def showKeys (b : TextBook) (w : World) : List String → Checked (World × List String)
  | [] => .ok (w, [])
  | key :: keys => do
    let (w, shown) ← showReading w (← b.readKey w key)
    let (w, others) ← showKeys b w keys
    return (w, shown ++ others)

/-- Show what a name stands for: the lines of a text, or those of a node and, when it has no
choices, of what its goto names. At most `hops` names are followed. Gives the world, the node
whose choices are now on offer, and the keys shown. -/
def follow (b : TextBook) :
    Nat → World → String → Option (Checked (World × Option String × List String))
  | 0, _, _ => none
  | hops + 1, w, name =>
    match b.route? name with
    | none => some do
      let (w, keys) ← showReading w (← b.readName w name)
      return (w, none, keys)
    | some node =>
      match showKeys b w node.readingOrder with
      | .error e => some (.error e)
      | .ok (w, keys) =>
        if !node.choices.isEmpty then some (.ok (w, some name, keys))
        else
          match node.goto with
          | none => some (.ok (w, none, keys))
          | some next =>
            (follow b hops w next).map fun r => do
              let (w, node, others) ← r
              return (w, node, keys ++ others)

/-- Enter a name in a world; following names in a circle is an error. -/
def enter (b : TextBook) (w : World) (name : String) :
    Checked (World × Option String × List String) :=
  (follow b gotoLimit w name).getD
    (.error { cause := .tooManyGotos name, phase := .play })

/-- The frame that a turn leads to, with the keys of the lines shown: operations are applied, then a
text or node is entered. -/
def nextFrame (p : Playthrough) (operations : List Operation) (text : Option String) :
    Checked (Frame × List String) := do
  let (world, scene) ← p.world.applyInScene p.scene operations
  let (world, node, keys) ← match text with
    | none => .ok (world, none, [])
    | some name => enter p.book world name
  return ({ world, scene, node }, keys)

/-- Lay a frame on the others. -/
def push (p : Playthrough) (f : Frame) : Playthrough :=
  { p with current := f, past := p.current :: p.past }

/-- One turn: its frame is laid on the others once nothing can fail any more. -/
def advance (p : Playthrough) (operations : List Operation) (text : Option String) :
    Playthrough × Checked (List String) :=
  match p.nextFrame operations text with
  | .error e => (p, .error e)
  | .ok (frame, keys) => (p.push frame, .ok keys)

/-- A turn that fails changes nothing. -/
theorem advance_eq_error {p p' : Playthrough} {operations : List Operation} {text : Option String}
    {e : ScriptError} (h : p.advance operations text = (p', .error e)) : p' = p := by
  rw [advance] at h
  split at h
  · exact (Prod.mk.inj h).1.symm
  · cases (Prod.mk.inj h).2

/-- A turn that succeeds lays its frame on the others. -/
theorem advance_eq_ok_iff {p p' : Playthrough} {operations : List Operation} {text : Option String}
    {keys : List String} : p.advance operations text = (p', .ok keys) ↔
      ∃ f, p.nextFrame operations text = .ok (f, keys) ∧ p' = p.push f := by
  rw [advance]
  split
  · next e hframe => simp [hframe]
  · next f shown hframe =>
    rw [hframe, Prod.mk.injEq, Except.ok.injEq]
    constructor
    · rintro ⟨rfl, rfl⟩
      exact ⟨f, rfl, rfl⟩
    · rintro ⟨f', hsame, rfl⟩
      cases hsame
      exact ⟨rfl, rfl⟩

/-- Play an action. Gives the playthrough afterwards and the keys of the lines shown. -/
def perform (p : Playthrough) (a : Action) : Playthrough × Checked (List String) :=
  p.advance a.operations a.text

/-- Take a choice. Gives the playthrough afterwards and the keys of the lines shown. -/
def take (p : Playthrough) (step : ChoiceStep) : Playthrough × Checked (List String) :=
  p.advance step.operations (some step.next)

/-- A turn that fails gives its error, and no playthrough to go on with. -/
instance : Coe (Playthrough × Checked (List String)) (Checked (Playthrough × List String)) where
  coe turn := turn.2.map fun keys => (turn.1, keys)

/-- Take the last turn back, if there is one. -/
def undo? (p : Playthrough) : Option Playthrough :=
  match p.past with
  | [] => none
  | last :: past => some { p with current := last, past }

/-- The line that a shown key stands for. -/
def line (p : Playthrough) (key : String) : Checked String := p.book.line key

/-- The line that a key shows right now. -/
def text (p : Playthrough) (key : String) : Checked String := do
  let reading ← p.book.readKey p.world key
  p.line (reading.keys.head?.getD key)

end Playthrough

end StoryTape
