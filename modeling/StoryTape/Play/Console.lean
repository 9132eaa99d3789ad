import StoryTape.Play.Command
import StoryTape.Play.Menu
import StoryTape.Play.Style
import StoryTape.Settings
import StoryTape.Text.Fill

/-!
# The console

The console shows the menu and a prompt, reads a command and answers it, until the player quits or
has nothing more to say. It is a function of the lines typed; the text it gives holds what is
shown, the lines typed aside.
-/

namespace StoryTape

open Text

/-- A console. -/
structure Console where
  /-- The settings of the player. -/
  settings : Settings := {}
  /-- Whether the screen shows colors. -/
  colors : Bool := false

/-- What a session has shown and where it ended. -/
structure Session where
  /-- Everything shown. -/
  output : String
  /-- The playthrough at the end. -/
  final : Playthrough
  /-- What broke the session off, when the player did not end it. -/
  fault : Option ExpansionFault := none

namespace Console

/-- One line in a style. -/
def line (c : Console) (style : Style) (text : String) : String :=
  style.paint c.colors text ++ "\n"

/-- The name of the scene, below an empty line. -/
def sceneText (c : Console) (p : Playthrough) : String := "\n" ++ c.line .scene p.scene

/-- The style of a menu's labels. -/
def labelStyle : Menu → Style
  | .choices _ => .choice
  | .actions _ => .action

/-- The entries of a menu, numbered from one. -/
def menuText (c : Console) (m : Menu) (p : Playthrough) : String :=
  match m.labels p with
  | [] => c.line .operation "Nothing to do here. Try 'undo' or 'quit'."
  | labels => String.join (labels.zipIdx.map fun (label, i) =>
      Style.index.paint c.colors (countText (i + 1) ++ ".") ++ " " ++ c.line (labelStyle m) label)

/-- The prompt: the scene and the number of turns. -/
def prompt (p : Playthrough) : String :=
  "\n[" ++ p.scene ++ "|turn " ++ countText p.turn ++ "]> "

/-- The narrowest column at which lines are broken. -/
def minWidth : Nat := 20

/-- The line of a key: a signal as it is, a line of the story broken to the width. -/
def storyText (c : Console) (p : Playthrough) (key : String) : String :=
  if isSignal key then c.line .signal key
  else
    match p.line key with
    | .ok text =>
      c.line .story (String.ofList (fill (max c.settings.wrapWidth minWidth) text.toList))
    | .error e => c.line .error e.describe

/-- What an action or a choice does, when the settings ask for it. -/
def operationsText (c : Console) (ops : List Operation) : String :=
  if c.settings.showOperations then
    String.join (ops.map fun op => "  " ++ c.line .operation op.describe)
  else ""

/-- A heading in brackets. -/
def headingText (c : Console) (text : String) : String :=
  Style.heading.paint c.colors ("[" ++ text ++ "]")

/-- Every location with its tags. -/
def worldText (c : Console) (w : World) : String :=
  String.join (w.locations.map fun l =>
    c.headingText l.name ++ " " ++ c.line .operation l.tags.render)

/-- The commands and what they do. -/
def commandHelp : List (String × String) :=
  [("<number>", "play the numbered action or answer"),
    ("undo", "take the last turn back"),
    ("state", "show every location and its tags"),
    ("help", "show this list"),
    ("quit", "leave the story")]

/-- The column in which the meanings of the commands start. -/
def helpColumn : Nat := 9

/-- The list of commands. -/
def helpText (c : Console) : String :=
  c.headingText "Commands" ++ "\n" ++ String.join (commandHelp.map fun (command, meaning) =>
    let padded := String.ofList (command.toList.rightpad helpColumn ' ')
    "  " ++ Style.index.paint c.colors padded ++ " " ++ meaning ++ "\n")

/-- The menu to pick from, and what the player sees of it. Where the actions cannot be told, the
error is shown and the menu is empty. -/
def offer (c : Console) (p : Playthrough) : Except ExpansionFault (Menu × String) :=
  match Menu.current p with
  | .ok m => .ok (m, c.menuText m p)
  | .error (.script e) =>
    let m := Menu.actions .empty
    .ok (m, c.line .error e.describe ++ c.menuText m p)
  | .error fault => .error fault

/-- Play an entry of the menu. The scene is shown again when it is another one. -/
def choose (c : Console) (m : Menu) (p : Playthrough) (number : Nat) : String × Playthrough :=
  match m.pick p number with
  | .error e => (c.line .error e.message, p)
  | .ok (q, keys, ops) =>
    let scene := if sameName q.scene p.scene then "" else c.sceneText q
    (c.operationsText ops ++ String.join (keys.map (c.storyText q)) ++ scene, q)

/-- Answer a command: what is shown, and the playthrough it goes on with unless the player
quits. -/
def respond (c : Console) (m : Menu) (p : Playthrough) : Command → String × Option Playthrough
  | .choose number =>
    let (shown, p) := c.choose m p number
    (shown, some p)
  | .undo =>
    match p.undo? with
    | some p => (c.line .operation "Back one turn." ++ c.sceneText p, some p)
    | none => (c.line .error "Nothing to undo.", some p)
  | .state => (c.worldText p.world, some p)
  | .help => (c.helpText, some p)
  | .quit => ("", none)
  | .unknown "" => ("", some p)
  | .unknown text => (c.line .error s!"Unknown command '{text}'. Type 'help'.", some p)

/-- Read commands line by line; the end of the lines ends the session. -/
def play (c : Console) (p : Playthrough) : List String → Session
  | [] =>
    match c.offer p with
    | .error fault => { output := "", final := p, fault := some fault }
    | .ok (_, offered) => { output := offered ++ prompt p, final := p }
  | typed :: lines =>
    match c.offer p with
    | .error fault => { output := "", final := p, fault := some fault }
    | .ok (m, offered) =>
      match c.respond m p (Command.parse typed) with
      | (shown, none) => { output := offered ++ prompt p ++ shown, final := p }
      | (shown, some next) =>
        let later := c.play next lines
        { later with output := offered ++ prompt p ++ shown ++ later.output }

/-- The lines of an input. What follows the last line end is a line unless it is empty. -/
def inputLines (input : String) : List String :=
  let pieces := splitChar '\n' input.toList
  let pieces := if pieces.getLast? == some [] then pieces.dropLast else pieces
  pieces.map fun s => String.ofList (dropEndWhile (· == '\r') s)

/-- A whole session: the scene, then commands until the end of the input. -/
def run (c : Console) (p : Playthrough) (input : String) : Session :=
  let session := c.play p (inputLines input)
  { session with output := c.sceneText p ++ session.output }

end Console

end StoryTape
