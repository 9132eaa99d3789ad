import StoryTape.World
import StoryTape.Proofs.TagText

/-!
# What lies where

A world is seen through two questions: which texts and which identifiers lie in the place of a
given name. An absent place holds nothing. When no two locations share a name, taking a tag out
and putting one in change the answers for that tag and that place alone, whether a location
vanishes, is made anew or neither, and names stay distinct.
-/

namespace StoryTape

open Text

/-- Names that are alike are alike to the same names. -/
theorem sameName_congr {a b : String} (h : sameName a b = true) (c : String) :
    sameName a c = sameName b c :=
  Bool.eq_iff_iff.mpr
    ⟨fun hac => sameName_trans (sameName_symm h) hac, fun hbc => sameName_trans h hbc⟩

namespace Ascending

/-- The keys after an insertion are the new key and the old ones. -/
theorem exists_key_insert_iff {α : Type} {key : α → String} {a : α} {xs : List α} {k : String} :
    (∃ b ∈ insert key a xs, key b = k) ↔ key a = k ∨ ∃ b ∈ xs, key b = k := by
  induction xs with
  | nil => simp [insert]
  | cons c xs ih =>
    simp only [insert]
    split
    · simp
    · split
      · next heq => simp [heq]
      · simp only [List.mem_cons, exists_eq_or_imp, ih]
        rw [← or_assoc, or_comm (a := key c = k), or_assoc]

end Ascending

namespace TagSet

/-- A set has the texts of its members. -/
theorem hasRaw_eq_true_iff {s : TagSet} {raw : String} :
    s.hasRaw raw = true ↔ ∃ t ∈ s.tags, t.raw = raw := by
  simp [hasRaw]

/-- A set has the identifiers of its members. -/
theorem hasValue_eq_true_iff {s : TagSet} {value : String} :
    s.hasValue value = true ↔ ∃ t ∈ s.tags, t.value = value := by
  simp [hasValue]

/-- Putting a tag in adds its text. -/
theorem hasRaw_insert {s : TagSet} {t : Tag} {raw : String} :
    (s.insert t).hasRaw raw = true ↔ t.raw = raw ∨ s.hasRaw raw = true := by
  rw [hasRaw_eq_true_iff, hasRaw_eq_true_iff]
  exact Ascending.exists_key_insert_iff

/-- Taking a text out leaves the others. -/
theorem hasRaw_eraseRaw {s : TagSet} {gone raw : String} :
    (s.eraseRaw gone).hasRaw raw = true ↔ raw ≠ gone ∧ s.hasRaw raw = true := by
  simp only [hasRaw_eq_true_iff, eraseRaw, filter, List.mem_filter, bne_iff_ne]
  constructor
  · rintro ⟨t, ⟨ht, hne⟩, rfl⟩
    exact ⟨hne, t, ht, rfl⟩
  · rintro ⟨hne, t, ht, rfl⟩
    exact ⟨t, ⟨ht, hne⟩, rfl⟩

/-- The set made from tags has their texts. -/
theorem hasRaw_ofList {tags : List Tag} {raw : String} :
    (ofList tags).hasRaw raw = true ↔ ∃ t ∈ tags, t.raw = raw := by
  have hfold : ∀ (rest listed : List Tag),
      (∃ t ∈ rest.foldl (fun sorted a => Ascending.insert Tag.raw a sorted) listed, t.raw = raw) ↔
        (∃ t ∈ listed, t.raw = raw) ∨ ∃ t ∈ rest, t.raw = raw := by
    intro rest
    induction rest with
    | nil => simp
    | cons a rest ih =>
      intro listed
      rw [List.foldl_cons, ih, Ascending.exists_key_insert_iff]
      simp only [List.mem_cons, exists_eq_or_imp]
      rw [or_assoc, or_left_comm]
  rw [hasRaw_eq_true_iff]
  exact (hfold tags []).trans (by simp)

/-- A set of one tag has its text alone. -/
@[simp] theorem hasRaw_singleton {t : Tag} {raw : String} :
    (singleton t).hasRaw raw = true ↔ t.raw = raw := by
  simp [hasRaw_eq_true_iff, singleton]

/-- An empty set has no text. -/
theorem hasRaw_eq_false_of_isEmpty {s : TagSet} (h : s.isEmpty = true) (raw : String) :
    s.hasRaw raw = false := by
  have hnil : s.tags = [] := List.isEmpty_iff.mp h
  simp [hasRaw, hnil]

/-- The empty set has no identifier. -/
@[simp] theorem hasValue_empty (value : String) : empty.hasValue value = false := rfl

end TagSet

/-- No two locations share a name. -/
def DistinctNames (ls : List Location) : Prop :=
  ls.Pairwise fun a b => sameName a.name b.name = false

/-- Locations of one name are one location. -/
theorem DistinctNames.eq_of_sameName {ls : List Location} (hd : DistinctNames ls) {a b : Location}
    (ha : a ∈ ls) (hb : b ∈ ls) (h : sameName a.name b.name = true) : a = b := by
  induction ls with
  | nil => cases ha
  | cons l ls ih =>
    obtain ⟨hhead, htail⟩ := List.pairwise_cons.mp hd
    rcases List.mem_cons.mp ha with hal | hal <;> rcases List.mem_cons.mp hb with hbl | hbl
    · rw [hal, hbl]
    · rw [hal, hhead b hbl] at h
      cases h
    · have hsymm := sameName_symm h
      rw [hbl, hhead a hal] at hsymm
      cases hsymm
    · exact ih htail hal hbl

namespace World

/-- No two locations of the world share a name. -/
def Distinct (w : World) : Prop := DistinctNames w.locations

instance (w : World) : Decidable w.Distinct :=
  inferInstanceAs (Decidable (w.locations.Pairwise _))

/-- A tag of the given text lies in the place of the given name. -/
def HoldsRaw (w : World) (raw place : String) : Prop :=
  ∃ l ∈ w.locations, sameName l.name place = true ∧ l.tags.hasRaw raw = true

/-- A tag of the given identifier lies in the place of the given name. -/
def HoldsValue (w : World) (value place : String) : Prop :=
  ∃ l ∈ w.locations, sameName l.name place = true ∧ l.tags.hasValue value = true

/-- A tag lies in the first location of the name or in one of the others. -/
theorem holdsRaw_cons {l : Location} {ls : List Location} {raw place : String} :
    HoldsRaw ⟨l :: ls⟩ raw place ↔
      (sameName l.name place = true ∧ l.tags.hasRaw raw = true) ∨ HoldsRaw ⟨ls⟩ raw place := by
  simp [HoldsRaw]

/-- The location found under a name is one of the world and has that name. -/
theorem mem_of_location? {w : World} {name : String} {l : Location}
    (h : w.location? name = some l) : l ∈ w.locations ∧ sameName l.name name = true :=
  ⟨List.mem_of_find?_eq_some h, by simpa using List.find?_some h⟩

/-- Every location is found under its name. -/
theorem Distinct.location?_eq_some {w : World} (hw : w.Distinct) {l : Location} {name : String}
    (hl : l ∈ w.locations) (hname : sameName l.name name = true) : w.location? name = some l := by
  cases hfound : w.location? name with
  | none =>
    have h := List.find?_eq_none.mp hfound l hl
    exact absurd hname h
  | some l' =>
    obtain ⟨hl', hname'⟩ := mem_of_location? hfound
    rw [DistinctNames.eq_of_sameName hw hl' hl (sameName_trans hname' (sameName_symm hname))]

/-- What a named place holds is what the location found there holds. -/
theorem Distinct.holdsValue_iff {w : World} (hw : w.Distinct) {l : Location} {value place : String}
    (h : w.location? place = some l) :
    w.HoldsValue value place ↔ l.tags.hasValue value = true := by
  obtain ⟨hl, hname⟩ := mem_of_location? h
  constructor
  · rintro ⟨l', hl', hname', hvalue⟩
    rwa [DistinctNames.eq_of_sameName hw hl hl' (sameName_trans hname (sameName_symm hname'))]
  · exact fun hvalue => ⟨l, hl, hname, hvalue⟩

/-- What the player carries is what lies in `DRAG`. -/
theorem Distinct.drag_hasValue_iff {w : World} (hw : w.Distinct) {value : String} :
    w.drag.hasValue value = true ↔ w.HoldsValue value dragName := by
  unfold drag drag? tags?
  cases h : w.location? dragName with
  | none =>
    have hnone := List.find?_eq_none.mp h
    simp only [Option.map_none, Option.getD_none, TagSet.hasValue_empty, Bool.false_eq_true,
      false_iff]
    rintro ⟨l, hl, hname, -⟩
    exact hnone l hl hname
  | some l => simp [hw.holdsValue_iff h]

section Take

variable {tag name : String} {ls ls' : List Location}

/-- A location that stays has its name, and no location is added. -/
theorem exists_of_mem_takeTag (h : takeTag tag name ls = some ls') {l' : Location}
    (hl' : l' ∈ ls') : ∃ l ∈ ls, l.name = l'.name := by
  induction ls generalizing ls' with
  | nil => simp [takeTag] at h
  | cons l ls ih =>
    simp only [takeTag] at h
    split at h
    · split at h
      · cases h
        exact ⟨l', List.mem_cons_of_mem _ hl', rfl⟩
      · cases h
        rcases List.mem_cons.mp hl' with rfl | hl'
        · exact ⟨l, List.mem_cons_self, rfl⟩
        · exact ⟨l', List.mem_cons_of_mem _ hl', rfl⟩
    · obtain ⟨rest, hrest, rfl⟩ := Option.map_eq_some_iff.mp h
      rcases List.mem_cons.mp hl' with rfl | hl'
      · exact ⟨l', List.mem_cons_self, rfl⟩
      · obtain ⟨l₀, hl₀, hname⟩ := ih hrest hl'
        exact ⟨l₀, List.mem_cons_of_mem _ hl₀, hname⟩

/-- Taking a tag out keeps names distinct. -/
theorem distinctNames_takeTag (hd : DistinctNames ls) (h : takeTag tag name ls = some ls') :
    DistinctNames ls' := by
  induction ls generalizing ls' with
  | nil => simp [takeTag] at h
  | cons l ls ih =>
    obtain ⟨hhead, htail⟩ := List.pairwise_cons.mp hd
    simp only [takeTag] at h
    split at h
    · split at h
      · cases h
        exact htail
      · cases h
        exact List.pairwise_cons.mpr ⟨hhead, htail⟩
    · obtain ⟨rest, hrest, rfl⟩ := Option.map_eq_some_iff.mp h
      refine List.pairwise_cons.mpr ⟨fun l' hl' => ?_, ih htail hrest⟩
      obtain ⟨l₀, hl₀, hname⟩ := exists_of_mem_takeTag hrest hl'
      rw [← hname]
      exact hhead l₀ hl₀

/-- Taking a tag out takes that text out of that place and nothing else. Later locations have
other names, so a vanished location uncovers nothing. -/
theorem holdsRaw_takeTag (hd : DistinctNames ls) (h : takeTag tag name ls = some ls')
    {raw place : String} :
    HoldsRaw ⟨ls'⟩ raw place ↔
      HoldsRaw ⟨ls⟩ raw place ∧ ¬ (raw = tag ∧ sameName name place = true) := by
  induction ls generalizing ls' with
  | nil => simp [takeTag] at h
  | cons l ls ih =>
    obtain ⟨hhead, htail⟩ := List.pairwise_cons.mp hd
    simp only [takeTag] at h
    split at h
    · next hname =>
      have hhere : sameName l.name place = sameName name place := sameName_congr hname place
      -- Names are distinct, so no location behind this one is the place.
      have helsewhere : sameName name place = true → ¬ HoldsRaw ⟨ls⟩ raw place := by
        rintro hp ⟨l₀, hl₀, hplace, -⟩
        have hll₀ := sameName_trans (hhere.trans hp) (sameName_symm hplace)
        rw [hhead l₀ hl₀] at hll₀
        cases hll₀
      have hcons : HoldsRaw ⟨{ l with tags := l.tags.eraseRaw tag } :: ls⟩ raw place ↔
          HoldsRaw ⟨l :: ls⟩ raw place ∧ ¬ (raw = tag ∧ sameName name place = true) := by
        rw [holdsRaw_cons, holdsRaw_cons, TagSet.hasRaw_eraseRaw, hhere]
        by_cases hp : sameName name place = true
        · simp only [hp, true_and, and_true, helsewhere hp, or_false]
          exact and_comm
        · simp [hp]
      split at h
      · next hempty =>
        cases h
        rw [← hcons, holdsRaw_cons, TagSet.hasRaw_eq_false_of_isEmpty hempty]
        simp
      · cases h
        exact hcons
    · next hname =>
      obtain ⟨rest, hrest, rfl⟩ := Option.map_eq_some_iff.mp h
      have hother : sameName l.name place = true → ¬ sameName name place = true :=
        fun hp hn => hname (sameName_trans hp (sameName_symm hn))
      rw [holdsRaw_cons, holdsRaw_cons, ih htail hrest]
      constructor
      · rintro (⟨hp, hraw⟩ | ⟨hl, hnot⟩)
        · exact ⟨.inl ⟨hp, hraw⟩, fun hn => hother hp hn.2⟩
        · exact ⟨.inr hl, hnot⟩
      · rintro ⟨hl | hl, hnot⟩
        · exact .inl hl
        · exact .inr ⟨hl, hnot⟩

end Take

section Put

variable {tag : Tag} {name : String} {ls : List Location}

/-- A location after putting a tag in has the name of one before, or is the new one. -/
theorem exists_of_mem_putTag {l' : Location} (hl' : l' ∈ putTag tag name ls) :
    (∃ l ∈ ls, l.name = l'.name) ∨ (l'.name = name ∧ ∀ l ∈ ls, sameName l.name name = false) := by
  induction ls with
  | nil =>
    have h : l' = ⟨name, .singleton tag⟩ := by simpa [putTag] using hl'
    exact .inr ⟨by rw [h], by simp⟩
  | cons l ls ih =>
    simp only [putTag] at hl'
    split at hl'
    · left
      rcases List.mem_cons.mp hl' with rfl | hl'
      · exact ⟨l, List.mem_cons_self, rfl⟩
      · exact ⟨l', List.mem_cons_of_mem _ hl', rfl⟩
    · next hname =>
      rcases List.mem_cons.mp hl' with rfl | hl'
      · exact .inl ⟨l', List.mem_cons_self, rfl⟩
      · rcases ih hl' with ⟨l₀, hl₀, h⟩ | ⟨h, hnew⟩
        · exact .inl ⟨l₀, List.mem_cons_of_mem _ hl₀, h⟩
        · refine .inr ⟨h, fun l₀ hl₀ => ?_⟩
          rcases List.mem_cons.mp hl₀ with rfl | hl₀
          · simpa using hname
          · exact hnew l₀ hl₀

/-- Putting a tag in keeps names distinct. -/
theorem distinctNames_putTag (hd : DistinctNames ls) : DistinctNames (putTag tag name ls) := by
  induction ls with
  | nil => exact List.pairwise_singleton _ _
  | cons l ls ih =>
    obtain ⟨hhead, htail⟩ := List.pairwise_cons.mp hd
    simp only [putTag]
    split
    · exact List.pairwise_cons.mpr ⟨hhead, htail⟩
    · next hname =>
      refine List.pairwise_cons.mpr ⟨fun l' hl' => ?_, ih htail⟩
      rcases exists_of_mem_putTag hl' with ⟨l₀, hl₀, h⟩ | ⟨h, -⟩
      · rw [← h]
        exact hhead l₀ hl₀
      · rw [h]
        simpa using hname

/-- Putting a tag in puts its text into that place and nothing else. -/
theorem holdsRaw_putTag {raw place : String} :
    HoldsRaw ⟨putTag tag name ls⟩ raw place ↔
      HoldsRaw ⟨ls⟩ raw place ∨ (raw = tag.raw ∧ sameName name place = true) := by
  induction ls with
  | nil =>
    simp only [putTag, holdsRaw_cons, TagSet.hasRaw_singleton]
    constructor
    · rintro (⟨hp, hraw⟩ | h)
      · exact .inr ⟨hraw.symm, hp⟩
      · exact .inl h
    · rintro (h | ⟨hraw, hp⟩)
      · exact .inr h
      · exact .inl ⟨hp, hraw.symm⟩
  | cons l ls ih =>
    simp only [putTag]
    split
    · next hname =>
      rw [holdsRaw_cons, holdsRaw_cons, TagSet.hasRaw_insert, sameName_congr hname place]
      constructor
      · rintro (⟨hp, hraw | hraw⟩ | h)
        · exact .inr ⟨hraw.symm, hp⟩
        · exact .inl (.inl ⟨hp, hraw⟩)
        · exact .inl (.inr h)
      · rintro ((⟨hp, hraw⟩ | h) | ⟨hraw, hp⟩)
        · exact .inl ⟨hp, .inr hraw⟩
        · exact .inr h
        · exact .inl ⟨hp, .inl hraw.symm⟩
    · rw [holdsRaw_cons, holdsRaw_cons, ih, or_assoc]

end Put

/-! ### Worlds to start with -/

/-- Setting the tags of a name adds the name if it is new. -/
theorem names_setTags (name : String) (tags : TagSet) (ls : List Location) :
    (setTags name tags ls).map Location.name =
      ls.map Location.name ++ if ls.any (sameName ·.name name) then [] else [name] := by
  induction ls with
  | nil => rfl
  | cons l ls ih =>
    rw [setTags, List.any_cons]
    by_cases hname : sameName l.name name = true
    · simp [hname]
    · simp [hname, ih]

/-- That no two locations share a name is told by their names. -/
theorem distinctNames_iff_names {ls : List Location} :
    DistinctNames ls ↔ (ls.map Location.name).Pairwise fun a b => sameName a b = false := by
  rw [DistinctNames, List.pairwise_map]

/-- Setting the tags of a name keeps names distinct. -/
theorem Distinct.withLocation {w : World} (hw : w.Distinct) (name : String) (tags : TagSet) :
    (w.withLocation name tags).Distinct := by
  have hnames := distinctNames_iff_names.mp hw
  refine distinctNames_iff_names.mpr ?_
  rw [World.withLocation, names_setTags]
  by_cases hnew : w.locations.any (sameName ·.name name) = true
  · simpa [hnew] using hnames
  · rw [if_neg hnew]
    refine List.pairwise_append.mpr ⟨hnames, List.pairwise_singleton _ _, ?_⟩
    intro other hother name' hname'
    obtain ⟨l, hl, rfl⟩ := List.mem_map.mp hother
    rw [List.mem_singleton.mp hname']
    simp only [List.any_eq_true, not_exists, not_and, Bool.not_eq_true] at hnew
    exact hnew l hl

/-- A name given twice is one location, so the names of a world made of locations are distinct. -/
theorem distinct_ofLocations (locations : List Location) : (ofLocations locations).Distinct := by
  have hfold : ∀ (ls : List Location) (w : World), w.Distinct →
      (ls.foldl (fun w l => w.withLocation l.name l.tags) w).Distinct := by
    intro ls
    induction ls with
    | nil => exact fun w hw => hw
    | cons l ls ih => exact fun w hw => ih _ (hw.withLocation l.name l.tags)
  exact hfold locations World.empty List.Pairwise.nil

end World

end StoryTape
