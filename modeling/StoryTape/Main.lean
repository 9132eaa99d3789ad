import StoryTape.CommandLine.Compiler
import StoryTape.CommandLine.Player

/-!
# Running on a real disk and terminal

`play` starts the player; all other words are for the compiler. Nothing is decided here: plans and
screens come from the modules imported.
-/

namespace StoryTape.CommandLine

/-- The settings file looked for in the working folder. -/
def defaultSettings : String := "storytape.toml"

/-- Read a file. -/
def readContent (path : String) : IO FileContent := do
  try
    let bytes ← IO.FS.readBinFile path
    return ((String.fromUTF8? bytes).map FileContent.text).getD .unreadable
  catch
    | .noFileOrDirectory .. => return .missing
    | _ => return .unreadable

/-- Take a step. -/
def Step.perform : Step → IO Unit
  | .makeFolders path => IO.FS.createDirAll path
  | .writeFile path text => IO.FS.writeFile path text
  | .say line => IO.println line

/-- Carry out a plan. -/
def Plan.perform (p : Plan) : IO Ending := do
  for step in p.steps do
    try step.perform
    catch _ => return .failed step.failure
  return p.ending

/-- Report an ending and give its exit code. -/
def report (usage : String) (ending : Ending) : IO UInt32 := do
  match ending with
  | .failed message => IO.eprintln s!"Error: {message}"
  | .misuse => IO.eprintln usage
  | _ => pure ()
  return ending.code.toUInt32

/-- Read commands from the terminal and answer them until the player quits. -/
partial def converse (c : Console) (p : Playthrough) : IO Ending := do
  match c.offer p with
  | .error _ => return .broken
  | .ok (menu, offered) =>
    let stdout ← IO.getStdout
    stdout.putStr (offered ++ Console.prompt p)
    stdout.flush
    let typed ← (← IO.getStdin).getLine
    match Console.inputLines typed with
    | [] => return .done
    | line :: _ =>
      let (shown, next) := c.respond menu p (Command.parse line)
      stdout.putStr shown
      match next with
      | none => return .done
      | some next => converse c next

/-- Run the player. -/
def performPlayer (words : List String) : IO Ending := do
  match PlayerRequest.read defaultSettings words with
  | .request request =>
    let settings ← readContent request.settings
    let file ← readContent request.file
    let read := fun path => if path = request.settings then settings else file
    match request.start read with
    | .error e => return .failed e.message
    | .ok (settings, p) =>
      let c : Console := { settings, colors := (← (← IO.getStdout).isTty) }
      IO.print (titleText c p ++ c.sceneText p)
      converse c p
  | reading =>
    match playerNotice? reading with
    | some notice =>
      IO.println notice
      return .done
    | none => return .misuse

/-- Run the compiler. -/
def performCompiler (words : List String) : IO Ending := do
  match CompilerRequest.parse? words with
  | none => return .misuse
  | some request =>
    let content ← match request.script? with
      | some script => readContent script
      | none => pure .missing
    (request.plan .standard content).perform

end StoryTape.CommandLine

open StoryTape.CommandLine

/-- Run the player or the compiler. -/
def main (words : List String) : IO UInt32 := do
  match words with
  | "play" :: words => report playerUsage (← performPlayer words)
  | words => report CompilerRequest.usage (← performCompiler words)
