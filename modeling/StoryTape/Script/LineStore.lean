import StoryTape.TextBook

/-!
# Storing lines

While a tape is compiled its texts go into a line store. A text is cut into lines at every `</>`,
and a signal `<$.../>` becomes a line of its own. A text written `(?<a><b>)` or `(!<a><b>)`
declares a sequence, whose lines are shown one per reading: in a loop, or up to the last. Lines are
only ever added, also when a later part of a sequence turns out to be wrong.
-/

namespace StoryTape.Script

open Text

/-- The lines stored so far. -/
structure LineStore where
  /-- The lines of each name. -/
  lines : Dict (List String) := .empty
  /-- The ranges of lines that were written together. -/
  ranges : Dict (List LineRange) := .empty
  /-- The first counters of the looping sequences, as declared. -/
  loops : List String := []
  /-- The first counters of the one-shot sequences, as declared. -/
  onces : List String := []
  deriving DecidableEq

/-- A text as a line, unless it is blank. -/
def trimmedPiece (text : List Char) : List (List Char) :=
  let text := trim text
  if text.isEmpty then [] else [text]

/-- Cut the signals out of a text: what stands between them is trimmed. -/
def splitSignals (text : List Char) : List (List Char) :=
  match _hopen : splitFirst ['<', '$'] text with
  | none => trimmedPiece text
  | some (before, inside) =>
    match _hclose : splitFirst ['/', '>'] inside with
    | none => trimmedPiece text
    | some (name, rest) =>
      trimmedPiece before ++ [['<', '$'] ++ name ++ ['/', '>']] ++ splitSignals rest
termination_by text.length
decreasing_by
  have h1 := congrArg List.length (eq_append_of_splitFirst _hopen)
  have h2 := congrArg List.length (eq_append_of_splitFirst _hclose)
  simp only [List.length_append, List.length_cons, List.length_nil] at h1 h2
  omega

/-- The lines of a text. -/
def splitPieces (text : List Char) : List String :=
  ((splitEvery ['<', '/', '>'] text).flatMap splitSignals).map String.ofList

/-- The kind and the parts of a trimmed text that declares a sequence. A text in parentheses that
ends like one has to open like one. -/
def sequenceLiteral? (text : List Char) : Option (Option (SequenceKind × List (List Char))) :=
  if ['('].isPrefixOf text && ['>', ')'].isSuffixOf text then
    let parts := splitEvery ['>', '<'] ((text.drop 3).take (text.length - 5))
    if ['(', '?', '<'].isPrefixOf text then some (some (.loop, parts))
    else if ['(', '!', '<'].isPrefixOf text then some (some (.once, parts))
    else some none
  else none

namespace LineStore

/-- The lines stored under a name. -/
def linesOf (s : LineStore) (name : String) : List String := (s.lines.get? name).getD []

/-- Whether a name has lines. -/
def contains (s : LineStore) (name : String) : Bool := s.lines.contains name

/-- The keys of the lines from number `start` on, last one first. -/
def keysFrom (name : String) (start : Nat) (lines : List String) : List String :=
  ((lines.zipIdx start).map fun (line, i) => if isSignal line then line else lineKey name i).reverse

/-- Store the lines of a text that is no sequence, and give their keys, last one first. -/
def addPlain (s : LineStore) (name : String) (text : List Char) :
    LineStore × Checked (List String) :=
  let pieces := splitPieces text
  if pieces.isEmpty then (s, .error { cause := .emptyText name, phase := .text })
  else
    let start := (s.linesOf name).length
    let lines := s.lines.insert name (s.linesOf name ++ pieces)
    let ranges :=
      if pieces.length > 1 then
        s.ranges.insert name
          ((s.ranges.get? name).getD [] ++ [⟨start, start + pieces.length⟩])
      else s.ranges
    ({ s with lines, ranges }, .ok (keysFrom name start pieces))

/-- Store the parts of a sequence one after the other, up to the first that fails. -/
def addParts (add : LineStore → List Char → LineStore × Checked (List String)) (s : LineStore) :
    List (List Char) → LineStore × Checked Unit
  | [] => (s, .ok ())
  | part :: parts =>
    match add s part with
    | (s, .ok _) => addParts add s parts
    | (s, .error e) => (s, .error e)

/-- Note the counter of a sequence that was stored. -/
def addCounter (s : LineStore) (name : String) : SequenceKind → LineStore
  | .loop => { s with loops := s.loops ++ [name ++ "_0"] }
  | .once => { s with onces := s.onces ++ [name ++ "_0"] }

/-- Store a sequence under a name that has no lines. -/
def addSequenceWith (add : LineStore → List Char → LineStore × Checked (List String))
    (s : LineStore) (name : String) (parts : List (List Char)) (kind : SequenceKind) :
    LineStore × Checked (List String) :=
  if s.contains name then (s, .error { cause := .sequenceExists name, phase := .text })
  else
    match addParts add s parts with
    | (s, .ok _) => (s.addCounter name kind, .ok [name])
    | (s, .error e) => (s, .error e)

/-- Store a text in which sequences are nested at most `depth` deep. -/
def addWithin (name : String) : Nat → LineStore → List Char → LineStore × Checked (List String)
  | 0, s, text => s.addPlain name (trim text)
  | depth + 1, s, text =>
    match sequenceLiteral? (trim text) with
    | none => s.addPlain name (trim text)
    | some none => (s, .error { cause := .sequenceOpening name, phase := .text })
    | some (some (kind, parts)) => s.addSequenceWith (addWithin name depth) name parts kind

/-- Store a text under a name and give the keys of its lines, last one first. A sequence has its
name as only key. Nested sequences get shorter, so the length of the text bounds their depth. -/
def add (s : LineStore) (name : String) (text : List Char) :
    LineStore × Checked (List String) :=
  addWithin name (text.length + 1) s text

/-- Store a sequence of texts under a name. -/
def addSequence (s : LineStore) (name : String) (parts : List (List Char))
    (kind : SequenceKind) : LineStore × Checked (List String) :=
  s.addSequenceWith (fun s part => s.add name part) name parts kind

/-- The text book of the stored lines and the given dialogue nodes. -/
def toBook (s : LineStore) (routes : Dict DialogueNode) : TextBook :=
  { lines := s.lines, ranges := s.ranges, routes }

end LineStore

end StoryTape.Script
