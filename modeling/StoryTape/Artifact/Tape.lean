import StoryTape.Artifact.Codec
import StoryTape.Tape

/-!
# Tapes as data

A tape becomes a tree of data and can be read back from one. Fields that hold nothing are left out
when written and take their default when read; a tag set is the list of its tags' texts, and a
dictionary is an object whose last entry of a name counts.
-/

namespace StoryTape.Artifact

/-! ### Writing -/

/-- A field that is left out when it has no value. -/
def optionalField (name : String) : Option String → List (String × Datum)
  | none => []
  | some s => [(name, .present (.text s))]

/-- A list of texts. -/
def ofTexts (texts : List String) : Datum := .array (texts.map .text)

/-- A tag set: the texts of its members. -/
def ofTagSet (s : TagSet) : Datum := ofTexts s.raws

/-- A tag set that is left out when it is empty. -/
def setField (name : String) (s : TagSet) : List (String × Datum) :=
  if s.isEmpty then [] else [(name, ofTagSet s)]

/-- A rule. -/
def ofRule (r : Rule) : Datum :=
  .record ([("match", .text r.target.raw)] ++ setField "context" r.context ++
    setField "cost" r.cost ++ setField "payload" r.payload ++ setField "gain" r.gain ++
    (if r.drag then [] else [("drag", .flag false)]) ++ optionalField "text" r.text)

/-- A location. -/
def ofLocation (l : Location) : Datum :=
  .record [("name", .text l.name), ("tags", ofTagSet l.tags)]

/-- A world: its locations. -/
def ofWorld (w : World) : Datum := .array (w.locations.map ofLocation)

/-- A choice. -/
def ofChoice (c : Choice) : Datum :=
  .record ([("choice", .text c.label), ("next", .text c.next)] ++
    setField "context" c.context ++ setField "cost" c.cost ++ setField "payload" c.payload ++
    setField "gain" c.gain)

/-- A dialogue node. -/
def ofNode (n : DialogueNode) : Datum :=
  .record ([("text", ofTexts n.text)] ++
    (if n.choices.isEmpty then [] else [("flow", .array (n.choices.map ofChoice))]) ++
    optionalField "goto" n.goto)

/-- A range of lines. -/
def ofRange (r : LineRange) : Datum :=
  .record [("start", .number r.start), ("end", .number r.stop)]

/-- A dictionary. -/
def ofDict {α : Type} (value : α → Datum) (d : Dict α) : Datum :=
  .object (d.entries.map fun (name, a) => (name, value a))

/-- A dictionary that is left out when it is empty. -/
def dictField {α : Type} (name : String) (value : α → Datum) (d : Dict α) :
    List (String × Datum) :=
  if d.isEmpty then [] else [(name, ofDict value d)]

/-- A text book. -/
def ofBook (b : TextBook) : Datum :=
  .record ([("lines", ofDict ofTexts b.lines)] ++
    dictField "ranges" (fun rs => .array (rs.map ofRange)) b.ranges ++
    dictField "routes" ofNode b.routes)

/-- A tape. -/
def ofTape (t : Tape) : Datum :=
  .record [("label", .text t.label), ("initial_state", ofWorld t.world),
    ("rules", .array (t.rules.map ofRule)), ("text", ofBook t.text)]

/-! ### Reading -/

/-- The text of a datum. -/
def toText? : Datum → Option String
  | .text s => some s
  | _ => none

/-- The truth value of a datum. -/
def toFlag? : Datum → Option Bool
  | .flag b => some b
  | _ => none

/-- The count of a datum. -/
def toCount? : Datum → Option Nat
  | .number n => some n
  | _ => none

/-- The list of a datum, each element read. -/
def toList? {α : Type} (value : Datum → Option α) : Datum → Option (List α)
  | .array xs => xs.mapM value
  | _ => none

/-- The optional text of a datum. -/
def toOptionalText? : Datum → Option (Option String)
  | .nothing => some none
  | .present (.text s) => some (some s)
  | _ => none

/-- The fields of a record. -/
def toFields? : Datum → Option (List (String × Datum))
  | .record fields => some fields
  | _ => none

/-- The value of a field that has to be there. -/
def need? {α : Type} (fields : List (String × Datum)) (name : String)
    (value : Datum → Option α) : Option α :=
  (fields.lookup name).bind value

/-- The value of a field, or its default. -/
def needOr? {α : Type} (default : α) (fields : List (String × Datum)) (name : String)
    (value : Datum → Option α) : Option α :=
  match fields.lookup name with
  | none => some default
  | some d => value d

/-- Read a tag. -/
def toTag? (d : Datum) : Option Tag := (toText? d).bind fun s => (Tag.parse s).toOption

/-- Read a tag set. -/
def toTagSet? (d : Datum) : Option TagSet := (toList? toTag? d).map TagSet.ofList

/-- Read a rule. -/
def toRule? (d : Datum) : Option Rule := do
  let fields ← toFields? d
  return {
    target := (← need? fields "match" toTag?)
    context := (← needOr? .empty fields "context" toTagSet?)
    cost := (← needOr? .empty fields "cost" toTagSet?)
    payload := (← needOr? .empty fields "payload" toTagSet?)
    gain := (← needOr? .empty fields "gain" toTagSet?)
    drag := (← needOr? true fields "drag" toFlag?)
    text := (← needOr? none fields "text" toOptionalText?) }

/-- Read a location. -/
def toLocation? (d : Datum) : Option Location := do
  let fields ← toFields? d
  return ⟨← need? fields "name" toText?, ← need? fields "tags" toTagSet?⟩

/-- Read a world. -/
def toWorld? (d : Datum) : Option World := (toList? toLocation? d).map World.mk

/-- Read a choice. -/
def toChoice? (d : Datum) : Option Choice := do
  let fields ← toFields? d
  return {
    label := (← need? fields "choice" toText?)
    next := (← need? fields "next" toText?)
    context := (← needOr? .empty fields "context" toTagSet?)
    cost := (← needOr? .empty fields "cost" toTagSet?)
    payload := (← needOr? .empty fields "payload" toTagSet?)
    gain := (← needOr? .empty fields "gain" toTagSet?) }

/-- Read a dialogue node. -/
def toNode? (d : Datum) : Option DialogueNode := do
  let fields ← toFields? d
  return {
    text := (← need? fields "text" (toList? toText?))
    choices := (← needOr? [] fields "flow" (toList? toChoice?))
    goto := (← needOr? none fields "goto" toOptionalText?) }

/-- Read a range of lines. -/
def toRange? (d : Datum) : Option LineRange := do
  let fields ← toFields? d
  return ⟨← need? fields "start" toCount?, ← need? fields "end" toCount?⟩

/-- Read a dictionary. -/
def toDict? {α : Type} (value : Datum → Option α) : Datum → Option (Dict α)
  | .object entries =>
    (entries.mapM fun entry => (value entry.2).map fun a => (entry.1, a)).map Dict.ofList
  | _ => none

/-- Read a text book. -/
def toBook? (d : Datum) : Option TextBook := do
  let fields ← toFields? d
  return {
    lines := (← needOr? .empty fields "lines" (toDict? (toList? toText?)))
    ranges := (← needOr? .empty fields "ranges" (toDict? (toList? toRange?)))
    routes := (← needOr? .empty fields "routes" (toDict? toNode?)) }

/-- Read a tape. -/
def toTape? (d : Datum) : Option Tape := do
  let fields ← toFields? d
  return {
    label := (← need? fields "label" toText?)
    world := (← need? fields "initial_state" toWorld?)
    rules := (← needOr? [] fields "rules" (toList? toRule?))
    text := (← needOr? {} fields "text" toBook?) }

/-! ### Shapes -/

/-- The shape of a tag set. -/
def tagSetShape : Shape := .list .text

/-- The shape of a rule. -/
def ruleShape : Shape := .record "Rule" [("match", .text), ("context", tagSetShape),
  ("cost", tagSetShape), ("payload", tagSetShape), ("gain", tagSetShape), ("drag", .flag),
  ("text", .optional .text)]

/-- The shape of a location. -/
def locationShape : Shape := .record "Location" [("name", .text), ("tags", tagSetShape)]

/-- The shape of a choice. -/
def choiceShape : Shape := .record "Stitch" [("choice", .text), ("next", .text),
  ("context", tagSetShape), ("cost", tagSetShape), ("payload", tagSetShape), ("gain", tagSetShape)]

/-- The shape of a dialogue node. -/
def nodeShape : Shape := .record "RouteNode" [("text", .list .text), ("flow", .list choiceShape),
  ("goto", .optional .text)]

/-- The shape of a range of lines. -/
def rangeShape : Shape := .record "LineRange" [("start", .count), ("end", .count)]

/-- The shape of a text book. -/
def bookShape : Shape := .record "TextBook" [("lines", .dict (.list .text)),
  ("ranges", .dict (.list rangeShape)), ("routes", .dict nodeShape)]

/-- The shape of a tape. -/
def tapeShape : Shape := .record "Tape" [("label", .text), ("initial_state", .list locationShape),
  ("rules", .list ruleShape), ("text", bookShape)]

/-! ### Texts -/

namespace Codecs

variable (codecs : Codecs)

/-- A tape as the text of an artifact. -/
def encode (f : Format) (t : Tape) : String := (codecs.codec f).render (ofTape t)

/-- Read the text of an artifact that holds one tape. -/
def decode? (f : Format) (text : String) : Option Tape :=
  ((codecs.codec f).parse? tapeShape text).bind toTape?

/-- Read the text of an artifact that holds a list of tapes. -/
def decodeAll? (f : Format) (text : String) : Option (List Tape) :=
  ((codecs.codec f).parse? (.list tapeShape) text).bind (toList? toTape?)

/-- Read the JSON text of a text book. -/
def decodeBook? (text : String) : Option TextBook :=
  ((codecs.codec .json).parse? bookShape text).bind toBook?

end Codecs

/-- A tape as the text of an artifact, as the programs write it. -/
def encode : Format → Tape → String := Codecs.standard.encode

/-- Read the text of an artifact that holds one tape, as the programs do. -/
def decode? : Format → String → Option Tape := Codecs.standard.decode?

/-- Read the JSON text of a text book, as the programs do. -/
def decodeBook? : String → Option TextBook := Codecs.standard.decodeBook?

end StoryTape.Artifact
