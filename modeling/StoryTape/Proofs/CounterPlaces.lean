import StoryTape.Proofs.CounterTags
import StoryTape.Proofs.NamedCounters
import StoryTape.Proofs.Places

/-!
# Counters in their places

The counters of a kind lie in one place of the world, where the position of a name is looked for
among all of them. A compiled tape puts its counters into places of their own, provided that its
state line declares none of these names; moving one counter on takes one text out of the place
and puts another one in, also where the place vanishes in between, and every other name stays where
it stands.
-/

namespace StoryTape

open Text

/-- Counters are alike only when name and position are. -/
theorem counterTag_inj {name name' : String} {index index' : Nat} :
    counterTag name index = counterTag name' index' ↔ name = name' ∧ index = index' := by
  refine ⟨fun h => ?_, fun ⟨hname, hindex⟩ => hname ▸ hindex ▸ rfl⟩
  have hcut := splitLast_append name.toList (underscore_not_mem_writeCount index)
  rw [← toList_counterTag, h, toList_counterTag,
    splitLast_append _ (underscore_not_mem_writeCount index')] at hcut
  obtain ⟨hname, hnumeral⟩ := Prod.mk.inj (Option.some.inj hcut)
  refine ⟨String.toList_inj.mp hname.symm, ?_⟩
  rw [← digitsValue_writeCount index, ← hnumeral, digitsValue_writeCount]

/-- Sequences of different kinds have their counters in different places. -/
@[simp] theorem sameName_place (kind kind' : SequenceKind) :
    sameName kind.place kind'.place = decide (kind = kind') := by
  cases kind <;> cases kind' <;> decide

section Search

variable {raw : String} {find : String → Option Nat}

/-- What is looked for is found as before when a tag that tells nothing of it is taken out. -/
theorem TagSet.findSome?_eraseRaw (tags : TagSet) (h : ∀ t : Tag, t.raw = raw → find t.value = none) :
    (tags.eraseRaw raw).values.findSome? find = tags.values.findSome? find := by
  have hlist : ∀ ts : List Tag, ((ts.filter (·.raw != raw)).map Tag.value).findSome? find =
      (ts.map Tag.value).findSome? find := by
    intro ts
    induction ts with
    | nil => rfl
    | cons t ts ih =>
      rw [List.filter_cons]
      split
      · rw [List.map_cons, List.map_cons, List.findSome?_cons, List.findSome?_cons, ih]
      · next hraw =>
        rw [List.map_cons, List.findSome?_cons, h t (by simpa using hraw), ih]
  exact hlist tags.tags

/-- So it is when such a tag is put in. -/
theorem TagSet.findSome?_insert (tags : TagSet) {t : Tag}
    (h : ∀ t' : Tag, t'.raw = t.raw → find t'.value = none) :
    (tags.insert t).values.findSome? find = tags.values.findSome? find := by
  have hlist : ∀ ts : List Tag, ((Ascending.insert Tag.raw t ts).map Tag.value).findSome? find =
      (ts.map Tag.value).findSome? find := by
    intro ts
    induction ts with
    | nil => simp [Ascending.insert, h t rfl]
    | cons t' ts ih =>
      rw [Ascending.insert]
      split
      · rw [List.map_cons, List.findSome?_cons, h t rfl]
      · split
        · next hsame =>
          rw [List.map_cons, List.map_cons, List.findSome?_cons, List.findSome?_cons, h t rfl,
            h t' hsame.symm]
        · rw [List.map_cons, List.map_cons, List.findSome?_cons, List.findSome?_cons, ih]
  exact hlist tags.tags

end Search

namespace World

variable {w w' : World} {name raw place : String}

instance (w : World) (raw place : String) : Decidable (w.HoldsRaw raw place) :=
  inferInstanceAs (Decidable (∃ l ∈ w.locations, _ ∧ _))

instance (w : World) (place : String) : Decidable (w.HasPlace place) :=
  inferInstanceAs (Decidable (∃ l ∈ w.locations, _))

/-! ### A place of one's own -/

/-- A location of a new name goes behind the others. -/
theorem withLocation_of_new (hnew : ¬ w.HasPlace name) (tags : TagSet) :
    w.withLocation name tags = ⟨w.locations ++ [⟨name, tags⟩]⟩ := by
  have hset : ∀ ls : List Location, (∀ l ∈ ls, ¬ sameName l.name name = true) →
      setTags name tags ls = ls ++ [⟨name, tags⟩] := by
    intro ls
    induction ls with
    | nil => exact fun _ => rfl
    | cons l ls ih =>
      intro h
      rw [setTags, if_neg (h l List.mem_cons_self),
        ih fun l' hl' => h l' (List.mem_cons_of_mem l hl'), List.cons_append]
  rw [withLocation, hset _ fun l hl hname => hnew ⟨l, hl, hname⟩]

/-- Tags that are put into a place lie there. -/
theorem holdsRaw_withLocation {tags : TagSet} (h : tags.hasRaw raw = true) :
    (w.withLocation name tags).HoldsRaw raw name := by
  have hset : ∀ ls : List Location, HoldsRaw ⟨setTags name tags ls⟩ raw name := by
    intro ls
    induction ls with
    | nil => exact holdsRaw_cons.mpr (.inl ⟨sameName_refl name, h⟩)
    | cons l ls ih =>
      rw [setTags]
      split
      · next hname => exact holdsRaw_cons.mpr (.inl ⟨hname, h⟩)
      · exact holdsRaw_cons.mpr (.inr ih)
  exact hset w.locations

/-- What lies in other places stays there. -/
theorem HoldsRaw.withLocation (h : w.HoldsRaw raw place) (hother : sameName name place = false)
    (tags : TagSet) : (w.withLocation name tags).HoldsRaw raw place := by
  have hset : ∀ ls : List Location, HoldsRaw ⟨ls⟩ raw place →
      HoldsRaw ⟨setTags name tags ls⟩ raw place := by
    intro ls
    induction ls with
    | nil => rintro ⟨l, ⟨⟩, -⟩
    | cons l ls ih =>
      intro hraw
      rw [setTags]
      split
      · next hname =>
        refine holdsRaw_cons.mpr ((holdsRaw_cons.mp hraw).imp_left fun hfirst => ?_)
        rw [sameName_congr hname, hother] at hfirst
        cases hfirst.1
      · exact holdsRaw_cons.mpr ((holdsRaw_cons.mp hraw).imp_right ih)
  exact hset w.locations h

/-- Counters that can be put into a place are read as tags. -/
theorem addCounters_eq_ok {counters : List String}
    (h : Script.addCounters name counters w = .ok w') :
    (counters = [] ∧ w' = w) ∨ ∃ members, counters.mapM Tag.parse = .ok members ∧
      w' = w.withLocation name (.ofList members) := by
  rw [Script.addCounters] at h
  split at h
  · next hempty =>
    cases h
    exact .inl ⟨List.isEmpty_iff.mp hempty, rfl⟩
  · obtain ⟨tags, htags, h⟩ := bind_eq_ok_iff.mp h
    obtain ⟨members, hmembers, htags⟩ := bind_eq_ok_iff.mp (mapError_eq_ok_iff.mp htags)
    cases htags
    cases h
    exact .inr ⟨members, hmembers, rfl⟩

/-- A counter that is put into a place lies there. -/
theorem exists_holdsRaw_of_addCounters {counters : List String}
    (h : Script.addCounters name counters w = .ok w') {counter : String}
    (hcounter : counter ∈ counters) :
    ∃ t, Tag.parse counter = .ok t ∧ w'.HoldsRaw t.raw name := by
  obtain ⟨rfl, -⟩ | ⟨members, hmembers, rfl⟩ := addCounters_eq_ok h
  · cases hcounter
  · obtain ⟨t, ht, hparse⟩ := exists_mem_of_mapM_ok hmembers hcounter
    exact ⟨t, hparse, holdsRaw_withLocation (TagSet.hasRaw_ofList.mpr ⟨t, ht, rfl⟩)⟩

/-- Counters that are put into one place leave the others alone. -/
theorem HoldsRaw.addCounters {counters : List String} (hraw : w.HoldsRaw raw place)
    (h : Script.addCounters name counters w = .ok w') (hother : sameName name place = false) :
    w'.HoldsRaw raw place := by
  obtain ⟨-, rfl⟩ | ⟨members, -, rfl⟩ := addCounters_eq_ok h
  · exact hraw
  · exact hraw.withLocation hother _

/-- Counters that are put into a new place lie there, and nothing else changes. -/
theorem holdsRaw_addCounters {counters : List String}
    (h : Script.addCounters name counters w = .ok w') (hnew : ¬ w.HasPlace name) :
    (∀ counter ∈ counters, ∃ t, Tag.parse counter = .ok t) ∧
    (∀ raw place, w'.HoldsRaw raw place ↔ w.HoldsRaw raw place ∨
      sameName name place = true ∧ ∃ counter ∈ counters, ∃ t, Tag.parse counter = .ok t ∧
        t.raw = raw) ∧
    ∀ place, sameName name place = false → (w'.HasPlace place ↔ w.HasPlace place) := by
  obtain ⟨rfl, rfl⟩ | ⟨members, hmembers, rfl⟩ := addCounters_eq_ok h
  · exact ⟨nofun, by simp, fun _ _ => Iff.rfl⟩
  · rw [withLocation_of_new hnew]
    refine ⟨fun counter hcounter => ?_, fun raw place => ?_, fun place hother => ?_⟩
    · obtain ⟨t, -, ht⟩ := exists_mem_of_mapM_ok hmembers hcounter
      exact ⟨t, ht⟩
    · have hlast : (∃ t ∈ members, t.raw = raw) ↔
          ∃ counter ∈ counters, ∃ t, Tag.parse counter = .ok t ∧ t.raw = raw := by
        constructor
        · rintro ⟨t, ht, hraw⟩
          obtain ⟨counter, hcounter, hparse⟩ := exists_of_mem_mapM_ok hmembers ht
          exact ⟨counter, hcounter, t, hparse, hraw⟩
        · rintro ⟨counter, hcounter, t, hparse, hraw⟩
          obtain ⟨t', ht', hparse'⟩ := exists_mem_of_mapM_ok hmembers hcounter
          cases hparse.symm.trans hparse'
          exact ⟨t, ht', hraw⟩
      rw [← hlast, ← TagSet.hasRaw_ofList]
      simp [HoldsRaw, or_and_right, exists_or]
    · simp [HasPlace, hother]

/-! ### Looking a position up -/

/-- Exactly the counters of the given names lie in the place of a kind, each at its position. -/
def Counts (w : World) (kind : SequenceKind) (names : String → Prop) (position : String → Nat) :
    Prop :=
  ∀ raw, w.HoldsRaw raw kind.place ↔ ∃ name, names name ∧ raw = counterTag name (position name)

section Positions

variable {kind : SequenceKind} {names : String → Prop} {position : String → Nat}

/-- The position of a name is that of its counter, whatever other counters there are. -/
theorem Distinct.positionOf?_eq (hw : w.Distinct) (hcounts : w.Counts kind names position)
    (hnames : ∀ name, names name → Countable name ∧ position name < wordSize) :
    (names name → w.positionOf? kind name = some (position name)) ∧
      (¬ names name → w.positionOf? kind name = none) := by
  -- every identifier in the place is a counter, and it tells its name's position alone
  have htells : ∀ l ∈ w.locations, sameName l.name kind.place = true →
      ∀ value ∈ l.tags.values, ∃ name', names name' ∧
        positionIn? name value = if name = name' then some (position name') else none := by
    intro l hl hplace value hvalue
    obtain ⟨t, ht, rfl⟩ := List.mem_map.mp hvalue
    have hraw : l.tags.hasRaw t.raw = true := TagSet.hasRaw_eq_true_iff.mpr ⟨t, ht, rfl⟩
    obtain ⟨name', hname', hcounter⟩ := (hcounts t.raw).mp ⟨l, hl, hplace, hraw⟩
    obtain ⟨hcountable, hposition⟩ := hnames name' hname'
    refine ⟨name', hname', ?_⟩
    rw [hcountable.value_eq hcounter, positionIn?_counterTag hposition]
  rw [positionOf?, tags?]
  constructor
  · intro hname
    obtain ⟨l, hl, hplace, hraw⟩ := (hcounts _).mpr ⟨name, hname, rfl⟩
    obtain ⟨t, ht, hcounter⟩ := TagSet.hasRaw_eq_true_iff.mp hraw
    obtain ⟨hcountable, hposition⟩ := hnames name hname
    have hvalue : t.value ∈ l.tags.values := List.mem_map_of_mem ht
    have hfound : positionIn? name t.value = some (position name) := by
      rw [hcountable.value_eq hcounter, positionIn?_counterTag hposition, if_pos rfl]
    rw [hw.location?_eq_some hl hplace]
    cases hfind : l.tags.values.findSome? (positionIn? name) with
    | none =>
      have hnone := List.findSome?_eq_none_iff.mp hfind t.value hvalue
      rw [hfound] at hnone
      cases hnone
    | some index =>
      obtain ⟨value, hvalue, hindex⟩ := List.exists_of_findSome?_eq_some hfind
      obtain ⟨name', -, htold⟩ := htells l hl hplace value hvalue
      rw [htold] at hindex
      split at hindex
      · next hsame =>
        cases hindex
        rw [Option.map_some, Option.bind_some, hfind, hsame]
      · cases hindex
  · intro hname
    cases hlocation : w.location? kind.place with
    | none => rfl
    | some l =>
      obtain ⟨hl, hplace⟩ := mem_of_location? hlocation
      refine List.findSome?_eq_none_iff.mpr fun value hvalue => ?_
      obtain ⟨name', hname', htold⟩ := htells l hl hplace value hvalue
      rw [htold, if_neg]
      rintro rfl
      exact hname hname'

/-- In a place that is there one text can be exchanged for another, whether or not it lies there. -/
theorem exists_apply_move (old : String) {new : String} (hplace : w.HasPlace place) {t : Tag}
    (hparse : Tag.parse new = .ok t) :
    ∃ ls, takeTag old place w.locations = some ls ∧
      w.apply [.removeTag old place, .appendTag new place] = .ok ⟨putTag t place ls⟩ := by
  obtain ⟨ls, htake⟩ : ∃ ls, takeTag old place w.locations = some ls :=
    takeTag_isSome_iff.mpr hplace
  refine ⟨ls, htake, ?_⟩
  have htakes : w.applyOne "" (.removeTag old place) = .ok (⟨ls⟩, "") := by
    rw [World.applyOne, htake]
  have hputs : World.applyOne ⟨ls⟩ "" (.appendTag new place) = .ok (⟨putTag t place ls⟩, "") := by
    rw [World.applyOne, hparse]
    rfl
  have happly : w.applyInScene "" [.removeTag old place, .appendTag new place] =
      .ok (⟨putTag t place ls⟩, "") := by
    rw [World.applyInScene, htakes]
    exact bind_eq_ok_iff.mpr ⟨_, rfl, bind_eq_ok_iff.mpr ⟨_, hputs, rfl⟩⟩
  rw [World.apply, happly]
  rfl

/-- A counter that lies in its place can be moved on. One text goes, another one comes. -/
theorem Distinct.apply_move (hw : w.Distinct) (old : String) {new : String}
    (hplace : w.HasPlace place) {t : Tag} (hparse : Tag.parse new = .ok t) :
    ∃ w', w.apply [.removeTag old place, .appendTag new place] = .ok w' ∧ w'.Distinct ∧
      ∀ raw place', w'.HoldsRaw raw place' ↔
        (w.HoldsRaw raw place' ∧ ¬ (raw = old ∧ sameName place place' = true)) ∨
          (raw = t.raw ∧ sameName place place' = true) := by
  obtain ⟨ls, htake, happly⟩ := exists_apply_move old hplace hparse
  refine ⟨⟨putTag t place ls⟩, happly, ?_, fun raw place' => ?_⟩
  · exact distinctNames_putTag (distinctNames_takeTag hw htake)
  · rw [holdsRaw_putTag, holdsRaw_takeTag hw htake]

end Positions

/-! ### Other names -/

section Others

variable {kind : SequenceKind} {key : String} {ls ls' : List Location}

/-- A counter is looked for in the first location of the right name and then in the others. -/
theorem positionOf?_cons (l : Location) (ls : List Location) (kind : SequenceKind) (key : String) :
    positionOf? ⟨l :: ls⟩ kind key =
      if sameName l.name kind.place = true then l.tags.values.findSome? (positionIn? key)
      else positionOf? ⟨ls⟩ kind key := by
  rw [positionOf?, tags?, location?, List.find?_cons]
  split <;> simp_all [positionOf?, tags?, location?]

/-- Nothing stands anywhere where there is no such place. -/
theorem positionOf?_of_forall_not (h : ∀ l ∈ ls, ¬ sameName l.name kind.place = true) :
    positionOf? ⟨ls⟩ kind key = none := by
  have hnowhere : location? ⟨ls⟩ kind.place = none := List.find?_eq_none.mpr h
  rw [positionOf?, tags?, hnowhere]
  rfl

/-- A tag that tells nothing of a name is put in without a trace. -/
theorem positionOf?_putTag {t : Tag}
    (h : ∀ t' : Tag, t'.raw = t.raw → positionIn? key t'.value = none) (ls : List Location) :
    positionOf? ⟨putTag t place ls⟩ kind key = positionOf? ⟨ls⟩ kind key := by
  induction ls with
  | nil =>
    rw [putTag, positionOf?_cons]
    split
    · simp [TagSet.singleton, TagSet.values, h t rfl, positionOf?, tags?, location?]
    · rfl
  | cons l ls ih =>
    rw [putTag]
    split
    · rw [positionOf?_cons, positionOf?_cons, TagSet.findSome?_insert _ h]
    · rw [positionOf?_cons, positionOf?_cons, ih]

/-- And it is taken out without one, even where its place vanishes. -/
theorem positionOf?_takeTag {raw : String} (hd : DistinctNames ls)
    (htake : takeTag raw place ls = some ls')
    (h : ∀ t : Tag, t.raw = raw → positionIn? key t.value = none) :
    positionOf? ⟨ls'⟩ kind key = positionOf? ⟨ls⟩ kind key := by
  induction ls generalizing ls' with
  | nil => cases htake
  | cons l ls ih =>
    obtain ⟨hhead, hrest⟩ := List.pairwise_cons.mp hd
    simp only [takeTag] at htake
    split at htake
    · have hsame := l.tags.findSome?_eraseRaw h
      split at htake
      · next hlast =>
        cases htake
        rw [positionOf?_cons]
        split
        · next hname =>
          -- the place has vanished with its last tag, and no other one has its name
          have hempty : (l.tags.eraseRaw raw).values = [] := by
            rw [TagSet.values, List.isEmpty_iff.mp hlast, List.map_nil]
          rw [← hsame, hempty, List.findSome?_nil]
          refine positionOf?_of_forall_not fun l' hl' hname' => ?_
          have hsame := sameName_trans hname (sameName_symm hname')
          rw [hhead l' hl'] at hsame
          cases hsame
        · rfl
      · cases htake
        rw [positionOf?_cons, positionOf?_cons, hsame]
    · obtain ⟨rest, hrest', rfl⟩ := Option.map_eq_some_iff.mp htake
      rw [positionOf?_cons, positionOf?_cons, ih hrest hrest']

/-- A counter can be moved on in its place, and every other name stays where it stands. -/
theorem Distinct.apply_moveCounter (hw : w.Distinct) (hplace : w.HasPlace place)
    (hname : Countable name) (index next : Nat) :
    ∃ w', w.apply [.removeTag (counterTag name index) place,
        .appendTag (counterTag name next) place] = .ok w' ∧
      w'.Distinct ∧ ∀ key ≠ name, w'.counter? key = w.counter? key := by
  obtain ⟨t, hparse, hraw, -⟩ := hname next
  obtain ⟨ls, htake, happly⟩ := exists_apply_move (counterTag name index) hplace hparse
  have hdistinct : DistinctNames ls := distinctNames_takeTag hw htake
  refine ⟨⟨putTag t place ls⟩, happly, distinctNames_putTag hdistinct, fun key hne => ?_⟩
  have htells : ∀ index (t : Tag), t.raw = counterTag name index → positionIn? key t.value = none :=
    fun index t ht => by rw [hname.value_eq ht, positionIn?_counterTag_of_ne hne]
  have hpositions : ∀ kind, positionOf? ⟨putTag t place ls⟩ kind key = w.positionOf? kind key := by
    intro kind
    rw [positionOf?_putTag fun t' ht' => htells next t' (ht'.trans hraw),
      positionOf?_takeTag hw htake (htells index)]
  simp only [counter?, hpositions]

end Others

end World

end StoryTape
