import StoryTape.Tag
import StoryTape.Ascending

/-!
# Tag sets

A tag set holds each tag once, in ascending order of the tags' texts. Two sets with the same
members are therefore equal (`TagSet.ext_mem`), and the written form, the texts joined with
semicolons, depends on the members alone.
-/

namespace StoryTape

open Text

/-- Tags in ascending order of their texts. -/
structure TagSet where
  /-- The members. -/
  tags : List Tag
  sorted : Ascending.Sorted Tag.raw tags

namespace TagSet

/-- The set without members. -/
def empty : TagSet := ⟨[], .nil⟩

instance : Inhabited TagSet := ⟨empty⟩

instance : Membership Tag TagSet := ⟨fun s t => t ∈ s.tags⟩

/-- Sets with the same list of members are the same. -/
theorem ext_tags {a b : TagSet} (h : a.tags = b.tags) : a = b := by
  cases a; cases b; cases h; rfl

instance : DecidableEq TagSet := fun a b =>
  if h : a.tags = b.tags then .isTrue (ext_tags h) else .isFalse fun e => h (e ▸ rfl)

/-- The set of the given tags. -/
def ofList (tags : List Tag) : TagSet :=
  ⟨Ascending.ofList Tag.raw tags, Ascending.sorted_ofList Tag.raw tags⟩

/-- The set of one tag. -/
def singleton (t : Tag) : TagSet := ⟨[t], List.pairwise_singleton _ t⟩

/-- The number of members. -/
def size (s : TagSet) : Nat := s.tags.length

/-- Whether the set has no members. -/
def isEmpty (s : TagSet) : Bool := s.tags.isEmpty

/-- The identifiers of the members, in order. -/
def values (s : TagSet) : List String := s.tags.map Tag.value

/-- Whether a tag is a member. Its text is looked for by halving. -/
def contains (s : TagSet) (t : Tag) : Bool :=
  match Ascending.search Tag.raw t.raw s.tags with
  | .taken _ => true
  | .free _ => false

/-- Whether some member has the given text. -/
def hasRaw (s : TagSet) (raw : String) : Bool := s.tags.any (·.raw == raw)

/-- Whether some member has the given identifier. -/
def hasValue (s : TagSet) (value : String) : Bool := s.tags.any (·.value == value)

/-- The set with one more member. -/
def insert (s : TagSet) (t : Tag) : TagSet :=
  ⟨Ascending.insert Tag.raw t s.tags, Ascending.sorted_insert s.sorted t⟩

/-- The members that pass a test. -/
def filter (s : TagSet) (p : Tag → Bool) : TagSet :=
  ⟨s.tags.filter p, Ascending.sorted_filter s.sorted p⟩

/-- The set without the member of the given text. -/
def eraseRaw (s : TagSet) (raw : String) : TagSet := s.filter (·.raw != raw)

/-- The set with one tag in place of another. -/
def replace (s : TagSet) (old new : Tag) : TagSet := (s.filter (· != old)).insert new

/-- The members of all sets in one. -/
def union (sets : List TagSet) : TagSet := ofList (sets.flatMap tags)

/-- The first member that is a template. -/
def firstTemplate? (s : TagSet) : Option Tag := s.tags.find? Tag.isTemplate

/-- Whether some member is a template. -/
def hasTemplate (s : TagSet) : Bool := s.firstTemplate?.isSome

/-- Read tags separated by semicolons; blank ones are passed over. -/
def parse (text : String) : Checked TagSet := do
  let members := ((splitChar ';' text.toList).map trim).filter (!·.isEmpty)
  let tags ← members.mapM fun member => Tag.parse (String.ofList member)
  return ofList tags

/-- Read a list of tag texts. -/
def ofRaws (raws : List String) : Checked TagSet := do
  let tags ← raws.mapM Tag.parse
  return ofList tags

/-- The texts of the members, in order. -/
def raws (s : TagSet) : List String := s.tags.map Tag.raw

/-- The written form: the texts joined with semicolons. -/
def render (s : TagSet) : String :=
  String.ofList (join [';'] (s.raws.map String.toList))

end TagSet

end StoryTape
