/-!
# Settings

How a player wants stories to be shown and commands to be read. Every setting has a default.
-/

namespace StoryTape

/-- The settings of a player. -/
structure Settings where
  /-- The column at which lines of the story are broken. -/
  wrapWidth : Nat := 80
  /-- Show what an action or a choice does to the world. -/
  showOperations : Bool := false
  /-- Edit commands before they are sent. -/
  lineEditor : Bool := true
  /-- Keep the commands of earlier sessions. -/
  history : Bool := true
  /-- The file that keeps them. -/
  historyFile : Option String := none
  deriving DecidableEq, Repr

/-- Where the commands of earlier sessions are kept. -/
inductive HistoryPlace where
  /-- They are not kept. -/
  | nowhere
  /-- In the user's own data. -/
  | userData
  /-- In a file. -/
  | file (path : String)
  deriving DecidableEq, Repr

/-- Where the settings keep the history. A file does not matter when there is none. -/
def Settings.historyPlace (s : Settings) : HistoryPlace :=
  if !s.history then .nowhere
  else
    match s.historyFile with
    | none => .userData
    | some path => .file path

end StoryTape
