import StoryTape.Text.Blank
import StoryTape.Text.Search
import StoryTape.Error

/-!
# Lines of a script

The first two characters of a line say what it declares. Any other line that is not blank goes on
with the declaration before it, so a long text can be written over several lines.
-/

namespace StoryTape.Script

open Text

/-- What a line declares. -/
inductive LineKind where
  /-- `==` or `=>`: opens a tape. -/
  | state
  /-- `++`: a rule. -/
  | rule
  /-- `--` or `->`: a line of dialogue. -/
  | route
  /-- `##`: a text. -/
  | text
  /-- `//`: nothing. -/
  | comment
  /-- `**`: a goal, without effect. -/
  | goal
  /-- `??`: a step, without effect. -/
  | step
  deriving DecidableEq, Repr

/-- What a line with this beginning declares, if anything. -/
def LineKind.classify : List Char → Option LineKind
  | '=' :: '=' :: _ | '=' :: '>' :: _ => some state
  | '+' :: '+' :: _ => some rule
  | '-' :: '-' :: _ | '-' :: '>' :: _ => some route
  | '#' :: '#' :: _ => some text
  | '/' :: '/' :: _ => some comment
  | '*' :: '*' :: _ => some goal
  | '?' :: '?' :: _ => some step
  | _ => none

/-- A declaration with the lines that go on with it. -/
structure ScriptLine where
  /-- The number of its first line, counted from one. -/
  number : Nat
  /-- What it declares. -/
  kind : LineKind
  /-- Its content; only lines of dialogue keep their opening. -/
  content : List Char
  deriving DecidableEq, Repr

/-- The declaration opened by a line. -/
def ScriptLine.ofLine (number : Nat) (kind : LineKind) (line : List Char) : ScriptLine :=
  { number, kind, content := trim (if kind = .route then line else line.drop 2) }

/-- A declaration with one more line joined to it. -/
def ScriptLine.extend (l : ScriptLine) (line : List Char) : ScriptLine :=
  { l with content := if l.content.isEmpty then line else l.content ++ ' ' :: line }

/-- The lines of a text with their numbers. -/
def numberedLines (source : List Char) : List (Nat × List Char) :=
  (splitChar '\n' source).zipIdx.map fun (line, i) => (i + 1, trimEnd line)

/-- The last declaration with one more line joined to it. -/
def extendLast (line : List Char) : List ScriptLine → List ScriptLine
  | [] => []
  | [l] => [l.extend line]
  | l :: ls => l :: extendLast line ls

/-- Take one more line into account. -/
def readLine (lines : List ScriptLine) : Nat × List Char → Checked (List ScriptLine)
  | (number, line) =>
    if line.isEmpty then .ok lines
    else
      match LineKind.classify line with
      | some kind => .ok (lines ++ [.ofLine number kind line])
      | none =>
        if lines.isEmpty then
          .error
            { cause := .strayText (String.ofList (trim line)), phase := .tape,
              lines := [number] }
        else .ok (extendLast (trim line) lines)

/-- The declarations of a script. -/
def splitScript (source : String) : Checked (List ScriptLine) :=
  (numberedLines source.toList).foldlM readLine []

end StoryTape.Script
