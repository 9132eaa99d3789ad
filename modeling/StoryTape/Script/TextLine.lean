import StoryTape.Script.Grammar

/-!
# Text lines

A text line names a text and gives its sentences. Sentences separated by `|` are shown in a loop,
sentences separated by `&` once each; where both signs occur, `|` separates and `&` belongs to a
sentence.
-/

namespace StoryTape.Script

open Text

/-- A text line. -/
structure TextLine where
  /-- The name of the text. -/
  name : String
  /-- The sentences, trimmed. -/
  sentences : List String
  /-- Whether each sentence is shown once. -/
  once : Bool
  deriving DecidableEq, Repr

/-- Sentences separated by `&` up to the end of the line, at least two, none holding `|`. -/
def readOnce (s : List Char) : Option (List String) :=
  match readSentences '&' ['&', '|'] s with
  | some (first :: second :: more, rest) =>
    if atEnd rest then some (trimSentences (first :: second :: more)) else none
  | _ => none

/-- Read the content of a text line: after its name, sentences shown once are looked for first, and
where they do not reach the end of the line, the text is read again as a loop. -/
def parseTextLine (source : String) : Checked TextLine :=
  match readName source.toList with
  | none => .error (malformed .text source.toList)
  | some (name, rest) =>
    match readOnce rest with
    | some sentences => .ok ⟨String.ofList name, sentences, true⟩
    | none =>
      match readLoop rest with
      | some sentences => .ok ⟨String.ofList name, sentences, false⟩
      | none => .error (malformed .text source.toList)

end StoryTape.Script
