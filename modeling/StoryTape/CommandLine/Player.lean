import StoryTape.Artifact.Load
import StoryTape.CommandLine.Arguments
import StoryTape.CommandLine.Plan
import StoryTape.Play.Console
import StoryTape.Settings.Load

/-!
# The player's command line

`FILE` is a script or an artifact; one of its tapes is played in the console. Settings come first,
then the tapes, the choice among them and the scene to start in: of several errors the first in
this order is reported.
-/

namespace StoryTape.CommandLine

open Artifact

/-- What the player is asked to do. -/
structure PlayerRequest where
  /-- The script or artifact. -/
  file : String
  /-- The label of the tape to play. -/
  tape : Option String := none
  /-- The scene to start in. -/
  scene : Option String := none
  /-- The settings file. -/
  settings : String
  deriving DecidableEq, Repr

/-- How the player is called. -/
def playerUsage : String := "Usage:\n  FILE [--tape LABEL] [--scene NAME] [--config PATH]"

/-- Read a command line; the settings are in `settings` unless it says otherwise. -/
def PlayerRequest.read (settings : String) (words : List String) : Reading PlayerRequest :=
  (Arguments.read [.text "tape", .text "scene", .path "config"] true words).bind fun a =>
    .ofOption (a.file.map fun file => {
      file, tape := a.option? "tape", scene := a.option? "scene",
      settings := (a.option? "config").getD settings })

/-- Why no playthrough starts. -/
inductive PlayerError where
  | settings (error : SettingsError)
  | load (error : LoadError)
  | select (error : SelectError)
  /-- The tape cannot be started. -/
  | start (label : String) (error : ScriptError)
  deriving Repr

/-- The wording of an error. -/
def PlayerError.message : PlayerError → String
  | settings e => e.message
  | load e => e.message
  | select e => e.message
  | start label _ => s!"starting tape '{label}'"

/-- Start a playthrough, given what the files hold. -/
def PlayerRequest.start (r : PlayerRequest) (read : String → FileContent) :
    Except PlayerError (Settings × Playthrough) := do
  let settings ← (Settings.load r.settings (read r.settings)).mapError .settings
  let tapes ← (Artifact.load r.file (read r.file)).mapError .load
  let tape ← (Artifact.select tapes r.tape).mapError .select
  let p ← (Playthrough.start tape r.scene).mapError (.start tape.label)
  return (settings, p)

/-- The label of the tape, with which the console opens. -/
def titleText (c : Console) (p : Playthrough) : String := c.line .title p.tape.label

/-- The answer to a command line that asks about the player and not for a playthrough. -/
def playerNotice? : Reading PlayerRequest → Option String
  | .help => some playerUsage
  | .version => some versionText
  | .misuse | .request _ => none

/-- Run the player on a disk in memory, with the lines typed as `input`. -/
def runPlayer (settings : String) (words : List String) (d : Disk) (input : String) : Outcome :=
  match PlayerRequest.read settings words with
  | .request request =>
    match request.start d.read with
    | .error e => { ending := .failed e.message, disk := d }
    | .ok (settings, p) =>
      let c : Console := { settings }
      let session := c.run p input
      { output := titleText c p ++ session.output
        ending := if session.fault.isSome then .broken else .done
        disk := d }
  | reading =>
    match playerNotice? reading with
    | some notice => { output := notice ++ "\n", ending := .done, disk := d }
    | none => { ending := .misuse, disk := d }

end StoryTape.CommandLine
