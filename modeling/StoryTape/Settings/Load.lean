import StoryTape.FileContent
import StoryTape.Settings
import StoryTape.Settings.Toml

/-!
# Loading settings

Each setting has a key in the settings file. A file that is not there leaves all settings at their
defaults; one that holds anything else than settings is refused.
-/

namespace StoryTape

/-- Why there are no settings. -/
inductive SettingsError where
  /-- The file cannot be read. -/
  | unreadable (path : String)
  /-- The file holds something else than settings. -/
  | malformed (path : String)
  deriving DecidableEq, Repr

/-- The wording of an error. -/
def SettingsError.message : SettingsError → String
  | unreadable path => s!"reading config '{path}'"
  | malformed path => s!"parsing config '{path}'"

namespace Settings

/-- The settings with one of them set. -/
def set? (s : Settings) : String × Toml.Value → Option Settings
  | ("wrap_width", .number n) => if 0 ≤ n then some { s with wrapWidth := n.toNat } else none
  | ("show_operations", .flag b) => some { s with showOperations := b }
  | ("line_editor", .flag b) => some { s with lineEditor := b }
  | ("history", .flag b) => some { s with history := b }
  | ("history_file", .text path) => some { s with historyFile := some path }
  | _ => none

/-- The settings of a file; none is set twice. -/
def ofEntries? (entries : List (String × Toml.Value)) : Option Settings :=
  if (entries.map Prod.fst).Nodup then entries.foldlM set? {} else none

/-- Read settings. -/
def parse? (text : String) : Option Settings := (Toml.parse? text).bind ofEntries?

/-- The settings of a file. -/
def load (path : String) : FileContent → Except SettingsError Settings
  | .missing => .ok {}
  | .unreadable => .error (.unreadable path)
  | .text content =>
    match parse? content with
    | some s => .ok s
    | none => .error (.malformed path)

end Settings

end StoryTape
