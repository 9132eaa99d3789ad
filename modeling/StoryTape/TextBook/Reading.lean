import StoryTape.TextBook
import StoryTape.World

/-!
# Reading texts

Reading a name gives the keys of the lines to show and the operations that go with them. A plain
name shows all of its lines. A sequence shows one: its position is a counter tag `NAME_i` in the
location of its kind, which moves on when the operations are applied.
-/

namespace StoryTape

open Text

/-- The location of the counters of a kind. -/
def SequenceKind.place : SequenceKind → String
  | .loop => loopName
  | .once => onceName

/-- The line after line `index` of `count`: a loop starts again, a one-shot sequence stays on its
last line. -/
def SequenceKind.after (kind : SequenceKind) (index count : Nat) : Nat :=
  match kind with
  | .loop => (index + 1) % count
  | .once => min (index + 1) (count - 1)

/-- What is shown of a text, and what showing it does. -/
structure Reading where
  /-- The keys of the lines shown. -/
  keys : List String
  /-- The operations that move a counter. -/
  operations : List Operation := []
  deriving DecidableEq, Repr

/-- The tag of a counter. -/
def counterTag (name : String) (index : Nat) : String := name ++ "_" ++ countText index

/-- The position that a tag's identifier records for a name. -/
def positionIn? (name value : String) : Option Nat :=
  let opening := name.toList ++ ['_']
  if opening.isPrefixOf value.toList then readCount (value.toList.drop opening.length) else none

namespace World

/-- The position of a name among the counters of one kind. -/
def positionOf? (w : World) (kind : SequenceKind) (name : String) : Option Nat :=
  (w.tags? kind.place).bind fun tags => tags.values.findSome? (positionIn? name)

/-- The kind and the position of a sequence, loops first. -/
def counter? (w : World) (name : String) : Option (SequenceKind × Nat) :=
  [SequenceKind.loop, .once].findSome? fun kind =>
    (w.positionOf? kind name).map fun index => (kind, index)

end World

namespace TextBook

/-- Reading a sequence: its current line, and its counter moved on. A position beyond the last
line counts as the last. -/
def readSequence? (b : TextBook) (w : World) (name : String) : Option Reading :=
  let count := b.lineCount name
  match w.counter? name with
  | none => none
  | some (kind, index) =>
    if count = 0 then none
    else
      let index := min index (count - 1)
      let next := kind.after index count
      let operations :=
        if next = index then []
        else [.removeTag (counterTag name index) kind.place,
          .appendTag (counterTag name next) kind.place]
      some { keys := [lineKey name index], operations }

/-- Reading one key. The name of a sequence still shows its current line. -/
def readKey (b : TextBook) (w : World) (key : String) : Checked Reading :=
  match b.readSequence? w key with
  | some reading => .ok reading
  | none => (b.line key).map fun _ => { keys := [key] }

/-- Reading a name: the current line of a sequence, all lines of a plain text, or one key. -/
def readName (b : TextBook) (w : World) (name : String) : Checked Reading :=
  match b.readSequence? w name with
  | some reading => .ok reading
  | none =>
    let count := b.lineCount name
    if count > 0 then .ok { keys := (List.range count).map (lineKey name) }
    else b.readKey w name

end TextBook

end StoryTape
