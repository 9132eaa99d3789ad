import StoryTape.Text.Numeral

/-!
# Script errors

What can be wrong with a script, a tape or a turn is a `Cause`: it says what happened and to which
names. A `ScriptError` adds the phase that met it and, while a script is compiled, the number of
every line it was blamed on. The kind and the wording of an error are functions of these three.
-/

namespace StoryTape

/-- What sort of thing went wrong, independent of where. -/
inductive ErrorKind where
  /-- A required text or collection is missing. -/
  | emptyValue
  /-- An index or a depth is outside its bounds. -/
  | outOfRange
  /-- A location, text or tape is looked up in vain. -/
  | keyNotFound
  /-- A name is taken already. -/
  | duplicateKey
  /-- The grammar or the indentation is violated. -/
  | syntaxError
  deriving DecidableEq, Repr

/-- The words that name a kind in a message. -/
def ErrorKind.label : ErrorKind → String
  | .emptyValue => "empty value"
  | .outOfRange => "out of range"
  | .keyNotFound => "key not found"
  | .duplicateKey => "duplicate key"
  | .syntaxError => "syntax error"

/-- Where an error was met. -/
inductive Phase where
  | tag | state | rule | route | text | tape | play
  deriving DecidableEq, Repr

/-- The word that names a phase in a message. -/
def Phase.label : Phase → String
  | .tag => "tag"
  | .state => "state"
  | .rule => "rule"
  | .route => "route"
  | .text => "text"
  | .tape => "tape"
  | .play => "play"

/-- The gotos followed in a row before a route counts as circular. -/
def gotoLimit : Nat := 32

/-- What happened, with the names it happened to. -/
inductive Cause where
  /-- A tag is blank. -/
  | blankTag
  /-- A tag has no identifier. -/
  | noIdentifier (tag : String)
  /-- What follows a marker in a tag is no level. -/
  | notANumber (tag marker rest : String)
  /-- A decrement cannot be negated. -/
  | decrementOutOfRange (tag : String)
  /-- A line has not the shape of its kind. -/
  | malformed (content : String)
  /-- A state line declares no label. -/
  | noLabel (content : String)
  /-- A rule line gains what it pays. -/
  | gainIsCost (gain target : String)
  /-- A rule that would apply gains what it pays. -/
  | gainIsPaid (gain target : String)
  /-- A sequence opens neither as a loop nor as a one-shot sequence. -/
  | sequenceOpening (name : String)
  /-- No text is left to store. -/
  | emptyText (name : String)
  /-- A sequence is declared under a name that has lines. -/
  | sequenceExists (name : String)
  /-- A dialogue line has fewer than two hyphens. -/
  | fewHyphens (line : String)
  /-- A dialogue line is indented too far. -/
  | depthJump (root : String) (depth current : Nat)
  /-- A choice has no bracketed label. -/
  | choiceWithoutLabel (text : String)
  /-- A choice has a label and no text. -/
  | choiceWithoutText (text : String)
  /-- A dialogue does not open with a choice. -/
  | noOpeningChoice (root : String)
  /-- A line stands before the first tape. -/
  | beforeTapes (what : String)
  /-- A text stands before the first declaration. -/
  | strayText (content : String)
  | tapeExists (label : String)
  | routeExists (root : String)
  | routeNodeExists (name : String)
  /-- A tag is to be removed from a location that does not exist. -/
  | removeFromNowhere (tag location : String)
  /-- A tape has not the location to start in. -/
  | noLocation (tape name : String)
  /-- A tape has no location to start in. -/
  | noScene (tape : String)
  /-- More gotos than allowed follow each other. -/
  | tooManyGotos (name : String)
  | noText (key : String)
  /-- A text has fewer lines than asked for. -/
  | noLine (name : String) (count index : Nat)
  deriving DecidableEq, Repr

/-- The kind of a cause. -/
def Cause.kind : Cause → ErrorKind
  | blankTag | noIdentifier .. | noLabel .. | emptyText .. | choiceWithoutText ..
  | noScene .. => .emptyValue
  | fewHyphens .. | noOpeningChoice .. | tooManyGotos .. | noLine .. => .outOfRange
  | removeFromNowhere .. | noLocation .. | noText .. => .keyNotFound
  | sequenceExists .. | tapeExists .. | routeExists .. | routeNodeExists .. => .duplicateKey
  | notANumber .. | decrementOutOfRange .. | malformed .. | gainIsCost .. | gainIsPaid ..
  | sequenceOpening .. | depthJump .. | choiceWithoutLabel .. | beforeTapes ..
  | strayText .. => .syntaxError

/-- The wording of a cause. -/
def Cause.message : Cause → String
  | blankTag => "tag text is empty"
  | noIdentifier tag => s!"tag '{tag}' has no identifier"
  | notANumber tag marker rest => s!"tag '{tag}': '{rest}' after '{marker}' is not a number"
  | decrementOutOfRange tag => s!"tag '{tag}': decrement out of range"
  | malformed content => s!"'{content}'"
  | noLabel content => s!"state '{content}' has no label"
  | gainIsCost gain target => s!"gain '{gain}' is also paid as cost in [{target}]"
  | gainIsPaid gain target => s!"gain '{gain}' of [{target}] is also paid as cost"
  | sequenceOpening name => s!"sequence '{name}' must open with '(?<' or '(!<'"
  | emptyText name => s!"text '{name}' is empty"
  | sequenceExists name => s!"sequence '{name}' already exists"
  | fewHyphens line => s!"route line '{line}' needs at least two hyphens"
  | depthJump root depth current =>
    let (new, old) := (Text.countText depth, Text.countText current)
    s!"route '{root}': depth {new} cannot follow depth {old}"
  | choiceWithoutLabel text => s!"route choice '{text}' needs a [short] label"
  | choiceWithoutText text => s!"route choice '{text}' has a label but no text"
  | noOpeningChoice root => s!"route '{root}' must open with a choice at depth 0"
  | beforeTapes what => s!"{what} line before any state declaration"
  | strayText content => s!"'{content}' does not belong to any declaration"
  | tapeExists label => s!"tape '{label}' already exists"
  | routeExists root => s!"route '{root}' already exists"
  | routeNodeExists name => s!"route node '{name}' already exists"
  | removeFromNowhere tag location => s!"cannot remove '{tag}': no location '{location}'"
  | noLocation tape name => s!"tape '{tape}' has no location '{name}'"
  | noScene tape => s!"tape '{tape}' has no scene"
  | tooManyGotos name =>
    let limit := Text.countText gotoLimit
    s!"route '{name}' follows more than {limit} gotos"
  | noText key => s!"no text '{key}'"
  | noLine name count index =>
    let (size, wanted) := (Text.countText count, Text.countText index)
    s!"text '{name}' has {size} lines, no line {wanted}"

/-- An error met by the compiler or the player. -/
structure ScriptError where
  /-- What happened. -/
  cause : Cause
  /-- Which phase met it. -/
  phase : Phase
  /-- The lines of the script it was blamed on, counted from one, the last blamed first. -/
  lines : List Nat := []
  deriving DecidableEq, Repr

namespace ScriptError

/-- The kind of an error is that of its cause. -/
def kind (e : ScriptError) : ErrorKind := e.cause.kind

/-- The same error, met by another phase. -/
def inPhase (e : ScriptError) (phase : Phase) : ScriptError := { e with phase }

/-- The same error, blamed on one more line. -/
def atLine (e : ScriptError) (line : Nat) : ScriptError := { e with lines := line :: e.lines }

/-- What opens the wording of an error that is blamed on a line. -/
def lineMark (line : Nat) : String := "line " ++ Text.countText line ++ ": "

/-- The wording of an error, opened by the lines it was blamed on. -/
def message (e : ScriptError) : String :=
  e.lines.foldr (fun line text => lineMark line ++ text) e.cause.message

/-- The full text of an error: phase, kind and message. -/
def describe (e : ScriptError) : String :=
  e.phase.label ++ " " ++ e.kind.label ++ ": " ++ e.message

end ScriptError

/-- Results of the functions that read scripts and tapes. -/
abbrev Checked (α : Type) := Except ScriptError α

/-- A result whose error is ascribed to another phase. -/
def Checked.inPhase {α : Type} (phase : Phase) (r : Checked α) : Checked α :=
  r.mapError (·.inPhase phase)

/-- A result whose error is blamed on a line. -/
def Checked.atLine {α : Type} (line : Nat) (r : Checked α) : Checked α :=
  r.mapError (·.atLine line)

end StoryTape
