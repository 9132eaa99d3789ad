import StoryTape.Dict
import StoryTape.Dialogue
import StoryTape.Error
import StoryTape.Text.Blank
import StoryTape.Text.Search

/-!
# Text books

A text book holds the lines of each text name, the ranges of lines that were written together and
the dialogue nodes. A line has a key: the bare name for the first line, `NAME_i` for line `i`. A
signal such as `<$shake/>` is a line that is its own key.
-/

namespace StoryTape

open Text

/-- How a sequence of lines goes on from reading to reading. -/
inductive SequenceKind where
  /-- After the last line comes the first. -/
  | loop
  /-- It stays on the last line. -/
  | once
  deriving DecidableEq, Repr

/-- Lines that were written together: `start` up to but not including `stop`. -/
structure LineRange where
  /-- The first line. -/
  start : Nat
  /-- The line after the last one. -/
  stop : Nat
  deriving DecidableEq, Repr

/-- The texts of a tape. -/
structure TextBook where
  /-- The lines of each name. -/
  lines : Dict (List String) := .empty
  /-- The ranges of each name. -/
  ranges : Dict (List LineRange) := .empty
  /-- The dialogue nodes. -/
  routes : Dict DialogueNode := .empty
  deriving DecidableEq

/-- The key of a line. -/
def lineKey (name : String) (index : Nat) : String :=
  if index = 0 then name else name ++ "_" ++ countText index

/-- Whether a text is a signal, which is its own key. -/
def isSignal (key : String) : Bool :=
  ['<', '$'].isPrefixOf key.toList && ['/', '>'].isSuffixOf key.toList

/-- A name cut around its last underscore, when a count follows. -/
def splitIndex (key : List Char) : Option (List Char × Nat) :=
  match splitLast ['_'] key with
  | none => none
  | some (name, index) => (readCount index).map fun i => (name, i)

/-- A key without the percent and number signs it ends with. -/
def bareKey (key : String) : String :=
  String.ofList (dropEndWhile (fun c => c == '%' || c == '#') key.toList)

namespace TextBook

/-- The lines stored under a name. -/
def linesOf (b : TextBook) (name : String) : List String := (b.lines.get? name).getD []

/-- The number of lines stored under a name. -/
def lineCount (b : TextBook) (name : String) : Nat := (b.linesOf name).length

/-- The line of a key written with an index. -/
def indexedLine (b : TextBook) (key : String) : Checked String :=
  match splitIndex key.toList with
  | none => .error { cause := .noText key, phase := .text }
  | some (name, index) =>
    let name := String.ofList name
    match b.lines.get? name with
    | none => .error { cause := .noText name, phase := .text }
    | some lines =>
      match lines[index]? with
      | some line => .ok line
      | none => .error { cause := .noLine name lines.length index, phase := .text }

/-- The line of a key. Percent and number signs at the end do not count, a signal is its own line,
and a name that has lines means the first of them. -/
def line (b : TextBook) (key : String) : Checked String :=
  let key := bareKey key
  if isSignal key then .ok key
  else
    match (b.linesOf key).head? with
    | some first => .ok first
    | none => b.indexedLine key

/-- Whether a key has a line. -/
def hasLine (b : TextBook) (key : String) : Bool := (b.line key).isOk

/-- The dialogue node of the given name. -/
def route? (b : TextBook) (name : String) : Option DialogueNode := b.routes.get? name

end TextBook

end StoryTape
