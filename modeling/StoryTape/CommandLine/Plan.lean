import StoryTape.CommandLine.Disk

/-!
# Plans

What a command line is about to do, step by step. A plan is a value, so it can be carried out on a
real disk or on one in memory. The first step that fails ends it.
-/

namespace StoryTape.CommandLine

/-- A step. -/
inductive Step where
  /-- Make a folder and those it lies in. -/
  | makeFolders (path : String)
  /-- Write a file. -/
  | writeFile (path text : String)
  /-- Print a line. -/
  | say (line : String)
  deriving DecidableEq, Repr

/-- The wording of a failed step. -/
def Step.failure : Step → String
  | makeFolders path => s!"creating {path}"
  | writeFile path _ => s!"writing {path}"
  | say _ => "printing"

/-- How a command line ends. -/
inductive Ending where
  | done
  /-- It has done its work and found fault with the input. -/
  | faulty
  /-- It is called in a wrong way. -/
  | misuse
  /-- It cannot do its work. -/
  | failed (message : String)
  /-- It breaks off. -/
  | broken
  deriving DecidableEq, Repr

/-- The exit code of an ending. -/
def Ending.code : Ending → Nat
  | done => 0
  | faulty | failed _ => 1
  | misuse => 2
  | broken => 101

/-- The error that an ending reports. -/
def Ending.error? : Ending → Option String
  | failed message => some message
  | _ => none

/-- A plan: its steps, and how it ends when none fails. -/
structure Plan where
  steps : List Step := []
  ending : Ending := .done

/-- What a command line has done. -/
structure Outcome where
  /-- What it has printed. -/
  output : String := ""
  /-- How it ended. -/
  ending : Ending
  /-- The disk it leaves. -/
  disk : Disk

/-- Take a step on a disk in memory. -/
def Disk.take? (d : Disk) : Step → Option Disk
  | .makeFolders path => d.makeFolders? path
  | .writeFile path text => d.write? path text
  | .say _ => some d

/-- What a step prints. -/
def Step.output : Step → String
  | .say line => line ++ "\n"
  | _ => ""

/-- Carry out steps on a disk in memory. -/
def Disk.follow (d : Disk) (ending : Ending) : List Step → Outcome
  | [] => { ending, disk := d }
  | step :: steps =>
    match d.take? step with
    | none => { ending := .failed step.failure, disk := d }
    | some next =>
      let later := next.follow ending steps
      { later with output := step.output ++ later.output }

/-- Carry out a plan on a disk in memory. -/
def Plan.run (p : Plan) (d : Disk) : Outcome := d.follow p.ending p.steps

end StoryTape.CommandLine
