import StoryTape.TagSet
import StoryTape.Operation
import StoryTape.Text.Fold

/-!
# The world

The world is a list of named locations with a tag set each; names ignore ASCII case. `DRAG` holds
what the player carries, `LOOP` and `ONCE` the counters of text sequences, every other location
can be a scene. Applying operations gives a new world; a location whose last tag is taken out
vanishes.
-/

namespace StoryTape

open Text

/-- The location of what the player carries. -/
def dragName : String := "DRAG"

/-- The location of the counters of looping sequences. -/
def loopName : String := "LOOP"

/-- The location of the counters of one-shot sequences. -/
def onceName : String := "ONCE"

/-- Whether a name means what the player carries. -/
def isDrag (name : String) : Bool := sameName name dragName

/-- Whether a name means a location where the player cannot be. -/
def isReserved (name : String) : Bool :=
  isDrag name || sameName name loopName || sameName name onceName

/-- A named place and the tags that lie there. -/
structure Location where
  /-- The name as spelled where the location was made. -/
  name : String
  /-- What lies there. -/
  tags : TagSet
  deriving DecidableEq

/-- The written form of a location. -/
def Location.render (l : Location) : String := "[" ++ l.name ++ ", " ++ l.tags.render ++ "]"

/-- The locations, in the order of their making. -/
structure World where
  /-- The locations. -/
  locations : List Location
  deriving DecidableEq, Inhabited

namespace World

/-- The world without locations. -/
def empty : World := ⟨[]⟩

/-- Whether there is no location. -/
def isEmpty (w : World) : Bool := w.locations.isEmpty

/-- The first location of the given name. -/
def location? (w : World) (name : String) : Option Location :=
  w.locations.find? (sameName ·.name name)

/-- The tags in the location of the given name. -/
def tags? (w : World) (name : String) : Option TagSet := (w.location? name).map Location.tags

/-- What the player carries, if that location exists. -/
def drag? (w : World) : Option TagSet := w.tags? dragName

/-- What the player carries. -/
def drag (w : World) : TagSet := w.drag?.getD .empty

/-- Every location except what the player carries. -/
def scenes (w : World) : List Location := w.locations.filter fun l => !isDrag l.name

/-- Change the tags of the first location of the given name, or add such a location. -/
def setTags (name : String) (tags : TagSet) : List Location → List Location
  | [] => [⟨name, tags⟩]
  | l :: ls => if sameName l.name name then { l with tags } :: ls else l :: setTags name tags ls

/-- The world with the given tags in the location of the given name. -/
def withLocation (w : World) (name : String) (tags : TagSet) : World :=
  ⟨setTags name tags w.locations⟩

/-- The world of the given locations; a name that comes again replaces the earlier tags. -/
def ofLocations (locations : List Location) : World :=
  locations.foldl (fun w l => w.withLocation l.name l.tags) empty

/-- Take a tag out of the first location of the given name, which vanishes with its last tag.
Fails when there is no such location. -/
def takeTag (tag name : String) : List Location → Option (List Location)
  | [] => none
  | l :: ls =>
    if sameName l.name name then
      let tags := l.tags.eraseRaw tag
      some (if tags.isEmpty then ls else { l with tags } :: ls)
    else (takeTag tag name ls).map (l :: ·)

/-- Put a tag into the first location of the given name, or into a new one. -/
def putTag (tag : Tag) (name : String) : List Location → List Location
  | [] => [⟨name, .singleton tag⟩]
  | l :: ls =>
    if sameName l.name name then { l with tags := l.tags.insert tag } :: ls
    else l :: putTag tag name ls

/-- What one operation does to the world and the scene. -/
def applyOne (w : World) (scene : String) : Operation → Checked (World × String)
  | .removeTag tag location =>
    match takeTag tag location w.locations with
    | none => .error { cause := .removeFromNowhere tag location, phase := .play }
    | some locations => .ok (⟨locations⟩, scene)
  | .appendTag tag location => do
    let tag ← (Tag.parse tag).inPhase .play
    return (⟨putTag tag location w.locations⟩, scene)
  | .goto scene => .ok (w, scene)
  | _ => .ok (w, scene)

/-- What operations do to the world and the scene, one after the other. -/
def applyInScene (w : World) (scene : String) : List Operation → Checked (World × String)
  | [] => .ok (w, scene)
  | op :: ops => do
    let (w, scene) ← applyOne w scene op
    applyInScene w scene ops

/-- What operations do to the world. -/
def apply (w : World) (ops : List Operation) : Checked World :=
  (w.applyInScene "" ops).map Prod.fst

/-- Whether one location is written before another: `DRAG` is last, others go by their text. -/
def writtenBefore (a b : Location) : Bool :=
  if isDrag a.name == isDrag b.name then a.render ≤ b.render else isDrag b.name

/-- The locations in the order they are written in. -/
def ordered (w : World) : List Location := w.locations.mergeSort writtenBefore

/-- The canonical text of the world, which does not depend on the order of its locations. -/
def canonical (w : World) : String :=
  if w.isEmpty then "== [" ++ dragName ++ ", ]"
  else "== " ++ String.ofList (join [' '] (w.ordered.map (·.render.toList)))

/-- Whether two worlds have the same canonical text. -/
def sameAs (a b : World) : Bool := a.canonical == b.canonical

end World

end StoryTape
