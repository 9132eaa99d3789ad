import StoryTape.Artifact.Tape
import StoryTape.FileContent
import StoryTape.Script.Compile
import StoryTape.Text.Fold

/-!
# Loading tapes

A file gives its tapes by its extension: artifacts hold one tape or a list of tapes, and any other
file is a script.
-/

namespace StoryTape.Artifact

open Text

/-- Why a file gives no tapes. -/
inductive LoadError where
  /-- The file cannot be read. -/
  | unreadable (path : String)
  /-- The file is no artifact of its format. -/
  | malformed (format : Format) (path : String)
  /-- The script does not compile. -/
  | script (path : String) (error : ScriptError)
  /-- There is no tape in the file. -/
  | noTape (path : String)
  deriving Repr

/-- The name of a format in messages. -/
def Format.title : Format → String
  | .json => "JSON"
  | .ron => "RON"

/-- The wording of an error. -/
def LoadError.message : LoadError → String
  | unreadable path => s!"reading '{path}'"
  | malformed format path =>
    let title := format.title
    s!"decoding {title} tape '{path}'"
  | script path _ => s!"compiling '{path}'"
  | noTape path => s!"'{path}' holds no tape"

/-- The error of the script behind an error. -/
def LoadError.cause? : LoadError → Option ScriptError
  | script _ e => some e
  | _ => none

/-- The extension of a file's name, in small letters: what follows its last point, unless the name
starts with that point. -/
def extension? (path : String) : Option (List Char) :=
  let name := (splitChar '/' path.toList).getLast?.getD []
  match splitLast ['.'] name with
  | some (before, after) => if before.isEmpty then none else some (fold after)
  | none => none

/-- The format of an artifact. -/
def formatOf? (path : String) : Option Format :=
  [Format.json, .ron].find? fun f => extension? path == some f.extension.toList

namespace Codecs

variable (codecs : Codecs)

/-- The tapes in the text of a file. -/
def tapesOf (path text : String) : Except LoadError (List Tape) :=
  match formatOf? path with
  | some f =>
    match codecs.decodeAll? f text with
    | some tapes => .ok tapes
    | none =>
      match codecs.decode? f text with
      | some tape => .ok [tape]
      | none => .error (.malformed f path)
  | none =>
    match Script.compile text with
    | .ok compiled => .ok compiled.tapes
    | .error e => .error (.script path e)

/-- Load the tapes of a file, at least one. -/
def load (path : String) : FileContent → Except LoadError (List Tape)
  | .text content =>
    match codecs.tapesOf path content with
    | .error e => .error e
    | .ok [] => .error (.noTape path)
    | .ok tapes => .ok tapes
  | _ => .error (.unreadable path)

end Codecs

/-- Load the tapes of a file as the programs do. -/
def load : String → FileContent → Except LoadError (List Tape) := Codecs.standard.load

/-- No tape has the label asked for. -/
structure SelectError where
  /-- The label asked for, if any. -/
  label : Option String
  /-- The labels there are. -/
  known : List String
  deriving Repr

/-- The wording of an error. -/
def SelectError.message (e : SelectError) : String :=
  match e.label with
  | none => "no tape to play"
  | some label =>
    let known := ", ".intercalate e.known
    s!"no tape '{label}' (have: {known})"

/-- The tape of the given label, letter case aside, or else the first. -/
def select (tapes : List Tape) (label : Option String) : Except SelectError Tape :=
  let found := match label with
    | none => tapes.head?
    | some label => Tape.find? tapes label
  match found with
  | some tape => .ok tape
  | none => .error ⟨label, tapes.map Tape.label⟩

end StoryTape.Artifact
