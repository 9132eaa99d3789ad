import StoryTape.Text.Blank
import StoryTape.Meter

/-!
# Tags

A tag is the atomic fact of a story, written `[!?]identifier[meter][<LOCATION>]`. A sign in front
says how a rule uses the tag, the meter holds its numbers, and a location in angle brackets says
where the tag lies. Everything about a tag is read off its text, so two tags with the same text
are the same tag (`Tag.ext_raw`).

Some tags are templates: they hold a wildcard, a step or, without a sign, a bound or a range, and
stand for the concrete tags found in a pool.
-/

namespace StoryTape

open Text

/-- How a rule uses a tag. -/
inductive TagMode where
  /-- No sign: removed when paid, added when gained. -/
  | plain
  /-- `?`: has to be there and stays. -/
  | required
  /-- `!`: must not be there. -/
  | forbidden
  deriving DecidableEq, Repr

/-- The sign in front of a tag. -/
def TagMode.sign : TagMode → List Char
  | .plain => []
  | .required => ['?']
  | .forbidden => ['!']

/-- What the text of a tag says. -/
structure TagParts where
  /-- How a rule uses the tag. -/
  mode : TagMode
  /-- The identifier. -/
  value : String
  /-- The location the tag is bound to. -/
  location : Option String
  /-- The numbers. -/
  meter : Meter
  deriving DecidableEq, Repr

/-- Split a text before its last `<` when a `>` follows; a blank location counts as none. -/
def splitLocation (raw : List Char) : List Char × Option String :=
  match splitLast ['<'] raw with
  | none => (raw, none)
  | some (body, rest) =>
    match splitLast ['>'] rest with
    | none => (raw, none)
    | some (inside, _) =>
      let location := trim inside
      (body, if location.isEmpty then none else some (String.ofList location))

/-- Split a text into its sign and the rest. -/
def splitSign : List Char → TagMode × List Char
  | '?' :: body => (.required, body)
  | '!' :: body => (.forbidden, body)
  | body => (.plain, body)

/-- Read a trimmed text as a tag. -/
def TagParts.read (raw : String) : Except Cause TagParts := do
  if raw.toList.isEmpty then throw .blankTag
  let (body, location) := splitLocation raw.toList
  let (mode, body) := splitSign body
  let (value, meter) ← splitMeter raw body
  if value.isEmpty then throw (.noIdentifier raw)
  return { mode, value := String.ofList value, location, meter }

/-- A tag: its text and what the text says. -/
structure Tag where
  /-- The text as written, without blanks at its ends. -/
  raw : String
  /-- What the text says. -/
  parts : TagParts
  trim_raw : trim raw.toList = raw.toList
  read_raw : TagParts.read raw = .ok parts

namespace Tag

/-- Read a tag from a text that may have blanks at its ends. -/
def parse (text : String) : Checked Tag :=
  let raw := String.ofList (trim text.toList)
  match h : TagParts.read raw with
  | .ok parts => .ok ⟨raw, parts, by simp [raw], h⟩
  | .error cause => .error { cause, phase := .tag }

/-- How a rule uses the tag. -/
def mode (t : Tag) : TagMode := t.parts.mode

/-- The identifier, without sign, meter marker and location. -/
def value (t : Tag) : String := t.parts.value

/-- The location the tag is bound to. -/
def location (t : Tag) : Option String := t.parts.location

/-- The numbers of the tag. -/
def meter (t : Tag) : Meter := t.parts.meter

/-- Tags with one text are one tag. -/
theorem ext_raw {a b : Tag} (h : a.raw = b.raw) : a = b := by
  obtain ⟨raw, parts, ht, hp⟩ := a
  obtain ⟨raw', parts', ht', hp'⟩ := b
  cases h
  have : parts = parts' := by rw [hp] at hp'; cases hp'; rfl
  cases this
  rfl

/-- Tags are told apart by their texts. -/
theorem raw_inj {a b : Tag} : a.raw = b.raw ↔ a = b := ⟨ext_raw, fun h => h ▸ rfl⟩

instance : DecidableEq Tag := fun a b =>
  if h : a.raw = b.raw then .isTrue (ext_raw h) else .isFalse fun e => h (e ▸ rfl)

/-- The text of a tag reads as the tag. -/
theorem parse_raw (t : Tag) : parse t.raw = .ok t := by
  have hraw : String.ofList (trim t.raw.toList) = t.raw := by
    rw [t.trim_raw, String.ofList_toList]
  unfold parse
  simp only
  split
  · next parts h => exact congrArg _ (ext_raw hraw)
  · next cause h => rw [hraw, t.read_raw] at h; cases h

/-- Whether the level of the tag is a number. -/
def hasMeter (t : Tag) : Bool := t.meter.hasValue

/-- Whether the text of the tag holds a wildcard. -/
def isJoker (t : Tag) : Bool := t.raw.toList.contains '*'

/-- Whether the text of the tag holds the range marker. -/
def hasDots (t : Tag) : Bool := occurs ['.', '.'] t.raw.toList

/-- A range with two ends, `gold.1..5`. -/
def isRange (t : Tag) : Bool :=
  t.hasDots && minLevel < t.meter.low && t.meter.high < maxLevel

/-- A range without ends, `gold..`. -/
def isOpenRange (t : Tag) : Bool := t.hasDots && t.meter == .unset

/-- A lower bound, `gold.>=5`. -/
def isGreater (t : Tag) : Bool := occurs ['>', '='] t.raw.toList && t.meter.step == maxLevel

/-- An upper bound, `gold.<=5`. -/
def isLower (t : Tag) : Bool := occurs ['<', '='] t.raw.toList && t.meter.step == minLevel

/-- A step up, `gold.++`. -/
def isIncrement (t : Tag) : Bool := occurs ['+', '+'] t.raw.toList && 0 < t.meter.step

/-- A step down, `gold.--`. -/
def isDecrement (t : Tag) : Bool := occurs ['-', '-'] t.raw.toList && t.meter.step < 0

/-- A bound or a range, which a context compares with the levels around. -/
def isComparison (t : Tag) : Bool := t.isGreater || t.isLower || t.isRange

/-- Whether the tag stands for others. Bounds and ranges do so only without a sign: with one they
are tests. -/
def isTemplate (t : Tag) : Bool :=
  t.isJoker || t.isIncrement || t.isDecrement ||
    (t.mode == .plain && (t.isGreater || t.isLower || t.hasDots))

/-- The text of a tag with the given sign, identifier and location. -/
def compose (mode : TagMode) (value : List Char) (location : Option String) : String :=
  match location with
  | none => String.ofList (mode.sign ++ value)
  | some name => String.ofList (mode.sign ++ value ++ '<' :: name.toList ++ ['>'])

/-- The identifier of this tag with another location and mode. -/
def relocated (t : Tag) (location : Option String) (mode : TagMode) : Checked Tag :=
  parse (compose mode t.value.toList location)

/-- A text with the last occurrence of one part replaced by another. -/
def replaceLast (old new s : List Char) : List Char :=
  match splitLast old s with
  | none => s
  | some (before, after) => before ++ new ++ after

/-- This tag with its level moved by `step`, in another location and mode. The level stays on the
scale. -/
def incremented (t : Tag) (step : Int) (location : Option String) (mode : TagMode) :
    Checked Tag :=
  let old := writeLevel t.meter.value
  let new := writeLevel (clampLevel (t.meter.value + step))
  parse (compose mode (replaceLast old new t.value.toList) location)

end Tag

end StoryTape
