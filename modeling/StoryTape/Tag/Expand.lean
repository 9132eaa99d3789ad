import StoryTape.Tag
import StoryTape.Text.Fold

/-!
# Templates of tags

A template is expanded against a pool of concrete tags. A wildcard `a.*`, `*.b` or `a.*.b` stands
for the pool tags whose identifiers start and end alike; a step for the pool tags with a level,
moved by the step; a bound or a range for the pool tags whose level it admits. When a wildcard
with one open end meets no tag, it is tried again without its outermost segment.
-/

namespace StoryTape

open Text

/-- Why an expansion has no result. -/
inductive ExpansionFault where
  /-- A tag that was put together anew cannot be read, or an expanded rule cannot be applied. -/
  | script (error : ScriptError)
  /-- A wildcard without match has its star before its first dot, so no segment can be dropped. -/
  | starBeforeDot (template : String)
  /-- Templates keep expanding into templates. -/
  | endless
  deriving Repr

/-- Results of expansions. -/
abbrev Expanded (α : Type) := Except ExpansionFault α

/-- A checked result as the result of an expansion. -/
def Checked.toExpanded {α : Type} (r : Checked α) : Expanded α := r.mapError .script

/-- The text before and the text after the first star of an identifier. Of `a.*` only the text
before counts, of `*.b` only the text after, of `a.*.b` both. -/
structure Wildcard where
  /-- What matching identifiers start with. -/
  head : Option (List Char)
  /-- What matching identifiers end with. -/
  tail : Option (List Char)
  deriving DecidableEq, Repr

/-- The wildcard in an identifier, if its star makes up a segment. -/
def Wildcard.ofValue? (value : List Char) : Option Wildcard :=
  let inner := occurs ['.', '*', '.'] value
  let hasHead := inner || ['.', '*'].isSuffixOf value
  let hasTail := inner || ['*', '.'].isPrefixOf value
  if hasHead || hasTail then
    (splitFirst ['*'] value).map fun (before, after) =>
      ⟨if hasHead then some before else none, if hasTail then some after else none⟩
  else none

/-- Whether an identifier starts and ends as the wildcard wants it, ignoring ASCII case. -/
def Wildcard.matchesValue (w : Wildcard) (value : List Char) : Bool :=
  w.head.all (startsWithFold value ·) && w.tail.all (endsWithFold value ·)

namespace Tag

/-- Pool tags with a level that passes the test and an identifier that starts like this one. -/
def admitted (t : Tag) (pool : List Tag) (test : Int → Bool) : List Tag :=
  pool.filter fun tag =>
    tag.hasMeter && test tag.meter.value && startsWithFold tag.value.toList t.value.toList

/-- The template's text with every star replaced, read as a tag. -/
def fillStars (t : Tag) (text : List Char) : Checked Tag :=
  parse (String.ofList (replaceChar '*' text t.raw.toList))

/-- Fill the star of `a.b.*` with what follows `b.` in pool identifiers. -/
def expandDroppingFirst (t : Tag) (head : List Char) (pool : List Tag) : Expanded (List Tag) :=
  match splitFirst ['.'] head with
  | none => .error (.starBeforeDot t.raw)
  | some (_, rest) =>
    (pool.filter fun tag =>
        startsWithFold tag.value.toList rest && rest.length < tag.value.toList.length).mapM
      fun tag => (t.fillStars (tag.value.toList.drop rest.length)).toExpanded

/-- Fill the star of `*.a.b` with what precedes `.a` in pool identifiers. -/
def expandDroppingLast (t : Tag) (tail : List Char) (pool : List Tag) : Expanded (List Tag) :=
  match splitLast ['.'] tail with
  | none => .ok []
  | some (rest, _) =>
    (pool.filter fun tag =>
        endsWithFold tag.value.toList rest && rest.length < tag.value.toList.length).mapM
      fun tag =>
        (t.fillStars (tag.value.toList.take (tag.value.toList.length - rest.length))).toExpanded

/-- The pool tags a wildcard matches, with the template's mode and location; failing these, the
second try with the outermost segment dropped, for identifiers of at least two dots. -/
def expandWildcard (t : Tag) (w : Wildcard) (pool : List Tag) : Expanded (List Tag) := do
  let found ← (pool.filter (w.matchesValue ·.value.toList)).mapM fun tag =>
    (tag.relocated t.location t.mode).toExpanded
  if !found.isEmpty then return found
  if t.value.toList.count '.' < 2 then return []
  match w.head, w.tail with
  | some head, none => t.expandDroppingFirst head pool
  | none, some tail => t.expandDroppingLast tail pool
  | _, _ => return []

/-- The concrete tags a tag stands for within a pool. A tag that is no template stands for
itself, and so does one whose numbers make no sense. -/
def expand (t : Tag) (pool : List Tag) : Expanded (List Tag) :=
  if !t.isTemplate then .ok [t]
  else if let some w := Wildcard.ofValue? t.value.toList then t.expandWildcard w pool
  else if t.isIncrement || t.isDecrement then
    (pool.filter fun tag =>
        startsWithFold tag.value.toList t.value.toList && tag.hasMeter).mapM
      fun tag => (tag.incremented t.meter.step t.location t.mode).toExpanded
  else if t.isGreater then .ok (t.admitted pool (t.meter.low ≤ ·))
  else if t.isLower then .ok (t.admitted pool (· ≤ t.meter.high))
  else if t.isRange then .ok (t.admitted pool fun v => t.meter.low ≤ v && v ≤ t.meter.high)
  else if t.meter = .unset then .ok (t.admitted pool fun _ => true)
  else .ok [t]

end Tag

end StoryTape
