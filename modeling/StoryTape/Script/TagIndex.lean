import StoryTape.Rule
import StoryTape.World
import StoryTape.Dialogue
import StoryTape.TextBook
import StoryTape.Text.Lowercase

/-!
# The index of identifiers

While a script is compiled, the identifiers of its concrete tags are collected, so that an author
can look for misspellings. Templates and sequence counters are left out.
-/

namespace StoryTape.Script

open Text

/-- Identifiers, each once and in ascending order. -/
structure TagIndex where
  /-- The identifiers. -/
  values : List String
  sorted : Ascending.Sorted id values

namespace TagIndex

/-- The index without identifiers. -/
def empty : TagIndex := ⟨[], .nil⟩

/-- Add one identifier. -/
def insert (index : TagIndex) (value : String) : TagIndex :=
  ⟨Ascending.insert id value index.values, Ascending.sorted_insert index.sorted value⟩

/-- Whether an identifier is that of a sequence counter, `NAME_i`. -/
def isCounter (value : String) : Bool := (splitIndex value.toList).isSome

/-- Add the identifier of a tag. -/
def addTag (index : TagIndex) (t : Tag) : TagIndex :=
  if t.isTemplate || isCounter t.value then index else index.insert t.value

/-- Add the identifiers of a set. -/
def addSet (index : TagIndex) (s : TagSet) : TagIndex := s.tags.foldl addTag index

/-- Add the identifiers of a world. -/
def addWorld (index : TagIndex) (w : World) : TagIndex :=
  w.locations.foldl (fun index l => index.addSet l.tags) index

/-- Add the identifiers of a rule. -/
def addRule (index : TagIndex) (r : Rule) : TagIndex :=
  [r.context, r.cost, r.payload, r.gain].foldl addSet (index.addTag r.target)

/-- Add the identifiers of a choice. -/
def addChoice (index : TagIndex) (c : Choice) : TagIndex :=
  [c.context, c.cost, c.payload, c.gain].foldl addSet index

/-- Whether an identifier is in the index. -/
def contains (index : TagIndex) (value : String) : Bool := index.values.contains value

/-- Whether one identifier is listed before another: by lower case, then by exact text. -/
def listedBefore (a b : String) : Bool :=
  if lowerText a = lowerText b then a ≤ b else lowerText a ≤ lowerText b

/-- The identifiers as they are listed. -/
def listing (index : TagIndex) : List String := index.values.mergeSort listedBefore

end TagIndex

end StoryTape.Script
