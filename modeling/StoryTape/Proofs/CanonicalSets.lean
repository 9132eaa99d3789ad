import Mathlib.Data.Finset.Union
import StoryTape.Proofs.ByteOrder
import StoryTape.Proofs.Searches
import StoryTape.Proofs.SetChoices
import StoryTape.Proofs.WrittenGroups

/-!
# Tag sets as sets of texts

However a tag set comes about, it is the set of the texts that were put in and not taken out. The
texts are in the order of their bytes, each once, so that a member is found by halving, sets with
the same members are equal, and a set is read back from its written form.
-/

namespace StoryTape

open Text

namespace TagSet

/-! ### The texts of a set -/

/-- The texts of the members. -/
def rawSet (s : TagSet) : Finset String := s.raws.toFinset

/-- The texts of a set are those that a member has. -/
theorem mem_rawSet {s : TagSet} {raw : String} : raw ∈ s.rawSet ↔ s.hasRaw raw = true := by
  simp [rawSet, raws, hasRaw]

/-- The set made from tags has their texts. -/
theorem rawSet_ofList (tags : List Tag) : (ofList tags).rawSet = (tags.map Tag.raw).toFinset := by
  ext raw
  rw [mem_rawSet, hasRaw_ofList, List.mem_toFinset, List.mem_map]

/-- Putting a tag in adds its text. -/
theorem rawSet_insert (s : TagSet) (t : Tag) :
    (s.insert t).rawSet = Insert.insert t.raw s.rawSet := by
  ext raw
  rw [mem_rawSet, hasRaw_insert, Finset.mem_insert, mem_rawSet, eq_comm]

/-- Taking a text out leaves the other texts. -/
theorem rawSet_eraseRaw (s : TagSet) (gone : String) :
    (s.eraseRaw gone).rawSet = s.rawSet.erase gone := by
  ext raw
  rw [mem_rawSet, hasRaw_eraseRaw, Finset.mem_erase, mem_rawSet]

/-- To drop a tag is to take its text out, as texts tell tags apart. -/
theorem filter_ne_eq_eraseRaw (s : TagSet) (t : Tag) : s.filter (· != t) = s.eraseRaw t.raw := by
  refine ext_tags (List.filter_congr fun t' _ => ?_)
  rw [Bool.eq_iff_iff, bne_iff_ne, bne_iff_ne, ne_eq, ne_eq, Tag.raw_inj]

/-- Replacing a tag by another replaces its text. -/
theorem rawSet_replace (s : TagSet) (old new : Tag) :
    (s.replace old new).rawSet = Insert.insert new.raw (s.rawSet.erase old.raw) := by
  rw [replace, rawSet_insert, filter_ne_eq_eraseRaw, rawSet_eraseRaw]

/-- The union of sets has the texts of all of them. -/
theorem rawSet_union (sets : List TagSet) :
    (union sets).rawSet = sets.toFinset.biUnion rawSet := by
  ext raw
  rw [union, rawSet_ofList]
  simp only [List.mem_toFinset, List.mem_map, List.mem_flatMap, Finset.mem_biUnion, rawSet, raws]
  constructor
  · rintro ⟨t, ⟨s, hs, ht⟩, rfl⟩
    exact ⟨s, hs, t, ht, rfl⟩
  · rintro ⟨s, hs, t, ht, rfl⟩
    exact ⟨t, ⟨s, hs, ht⟩, rfl⟩

/-- Whether a tag stands no further back than another. -/
def upTo (t t' : Tag) : Bool := decide (t.raw ≤ t'.raw)

/-- Sorted tags stand in order. -/
theorem pairwise_mergeSort_upTo (tags : List Tag) :
    (tags.mergeSort upTo).Pairwise fun t t' => upTo t t' = true := by
  refine List.pairwise_mergeSort (fun a b c hab hbc => ?_) (fun a b => ?_) tags
  · exact decide_eq_true (String.le_trans (of_decide_eq_true hab) (of_decide_eq_true hbc))
  · simpa [upTo] using String.le_total a.raw b.raw

/-- Putting tags in one after the other sorts them and drops repetitions. -/
theorem tags_ofList (tags : List Tag) : (ofList tags).tags = (tags.mergeSort upTo).dedup := by
  have hsorted := pairwise_mergeSort_upTo tags
  have hstrict : Ascending.Sorted Tag.raw (tags.mergeSort upTo).dedup := by
    refine ((hsorted.sublist (List.dedup_sublist _)).and (List.nodup_dedup _)).imp ?_
    rintro t t' ⟨hle, hne⟩
    refine Ascending.lt_of_not_lt_of_ne (String.not_lt.mpr (of_decide_eq_true hle)) fun hsame => ?_
    exact hne (Tag.ext_raw hsame.symm)
  have hset : ofList tags = ⟨_, hstrict⟩ := ext_mem fun t => by
    rw [mem_ofList, List.mem_dedup, List.mem_mergeSort]
  rw [hset]

/-- A set is what comes of sorting any list of its members and dropping repetitions. -/
theorem forall_mem_iff_tags_eq {s : TagSet} {tags : List Tag} :
    (∀ t, t ∈ s ↔ t ∈ tags) ↔ s.tags = (tags.mergeSort upTo).dedup := by
  constructor
  · intro h
    have hset : s = ofList tags := ext_mem fun t => (h t).trans mem_ofList.symm
    rw [hset, tags_ofList]
  · intro h t
    have hmem : t ∈ s.tags ↔ t ∈ tags := by rw [h, List.mem_dedup, List.mem_mergeSort]
    exact hmem

/-- The texts are in the order of their bytes. -/
theorem pairwise_utf8_raws (s : TagSet) : (s.raws.map utf8).Pairwise (· < ·) := by
  rw [raws, List.map_map, List.pairwise_map]
  exact s.sorted.imp utf8_lt_utf8_iff.mpr

/-! ### The written form -/

/-- The texts between the semicolons of a text, without blanks at their ends; blank ones do not
count. -/
def memberTexts (text : String) : List String :=
  (((splitChar ';' text.toList).map trim).filter (!·.isEmpty)).map String.ofList

/-- A text without the blanks at its ends. -/
def trimmed (text : String) : String := String.ofList (trim text.toList)

/-- Tags that are read from a list of texts have these texts, trimmed. -/
theorem raws_of_mapM_parse {texts : List String} {tags : List Tag}
    (h : texts.mapM Tag.parse = .ok tags) : tags.map Tag.raw = texts.map trimmed := by
  induction texts generalizing tags with
  | nil =>
    cases h
    rfl
  | cons text texts ih =>
    rw [List.mapM_cons] at h
    obtain ⟨t, ht, h⟩ := bind_eq_ok_iff.mp h
    obtain ⟨rest, hrest, h⟩ := bind_eq_ok_iff.mp h
    obtain rfl := pure_eq_ok_iff.mp h
    rw [List.map_cons, List.map_cons, ih hrest, Tag.raw_of_parse ht]
    rfl

/-- A text is read as the set of the tags that its member texts are read as. -/
theorem parse_eq_ok_iff {text : String} {s : TagSet} :
    parse text = .ok s ↔
      ∃ tags, (memberTexts text).mapM Tag.parse = .ok tags ∧ ofList tags = s := by
  rw [parse, memberTexts, List.mapM_map, Function.comp_def]
  exact bind_eq_ok_iff.trans (exists_congr fun _ => and_congr_right fun _ => pure_eq_ok_iff)

/-- The texts between the semicolons have no blanks at their ends. -/
theorem trimmed_of_mem_memberTexts {text member : String} (h : member ∈ memberTexts text) :
    trimmed member = member := by
  simp only [memberTexts, List.mem_map, List.mem_filter] at h
  obtain ⟨_, ⟨⟨piece, -, rfl⟩, -⟩, rfl⟩ := h
  rw [trimmed, String.toList_ofList, trim_trim]

/-- The texts between the semicolons hold none. -/
theorem not_mem_of_mem_memberTexts {text member : String} (h : member ∈ memberTexts text) :
    ';' ∉ member.toList := by
  simp only [memberTexts, List.mem_map, List.mem_filter] at h
  obtain ⟨_, ⟨⟨piece, hpiece, rfl⟩, -⟩, rfl⟩ := h
  rw [String.toList_ofList]
  exact fun hmem => not_mem_of_mem_splitChar hpiece ((trim_within piece).subset hmem)

/-- The texts of a set that is read are those of its members. -/
theorem rawSet_of_parse {text : String} {s : TagSet} (h : parse text = .ok s) :
    s.rawSet = (memberTexts text).toFinset := by
  obtain ⟨tags, htags, rfl⟩ := parse_eq_ok_iff.mp h
  have htrimmed : (memberTexts text).map trimmed = memberTexts text :=
    (List.map_congr_left fun _ hmem => trimmed_of_mem_memberTexts hmem).trans (List.map_id' _)
  rw [rawSet_ofList, raws_of_mapM_parse htags, htrimmed]

/-- The set read from texts has these texts, without the blanks at their ends. -/
theorem rawSet_of_ofRaws {texts : List String} {s : TagSet} (h : ofRaws texts = .ok s) :
    s.rawSet = (texts.map trimmed).toFinset := by
  obtain ⟨tags, htags, hs⟩ := bind_eq_ok_iff.mp h
  obtain rfl := pure_eq_ok_iff.mp hs
  rw [rawSet_ofList, raws_of_mapM_parse htags]

/-- No tag has an empty text. -/
theorem raw_ne_nil (t : Tag) : t.raw.toList ≠ [] := by
  intro hnil
  have hread := t.read_raw
  rw [TagParts.read, hnil] at hread
  cases hread

/-- The written form of a set has the texts of its members, as long as none of them holds a
semicolon. -/
theorem memberTexts_render {s : TagSet} (h : ∀ raw ∈ s.raws, ';' ∉ raw.toList) :
    memberTexts s.render = s.raws := by
  by_cases hnil : s.raws = []
  · rw [memberTexts, render, hnil]
    rfl
  · have hpieces : splitChar ';' s.render.toList = s.raws.map String.toList := by
      rw [render, String.toList_ofList]
      refine splitChar_join (fun hmap => hnil (List.map_eq_nil_iff.mp hmap)) ?_
      simpa using h
    have htrim : ((s.raws.map String.toList).map trim) = s.raws.map String.toList := by
      rw [raws, List.map_map, List.map_map, List.map_map]
      exact List.map_congr_left fun t _ => t.trim_raw
    have hfilled : (s.raws.map String.toList).filter (!·.isEmpty) = s.raws.map String.toList := by
      refine List.filter_eq_self.mpr fun member hmember => ?_
      obtain ⟨raw, hraw, rfl⟩ := List.mem_map.mp hmember
      obtain ⟨t, -, rfl⟩ := List.mem_map.mp hraw
      simpa using raw_ne_nil t
    rw [memberTexts, hpieces, htrim, hfilled, List.map_map]
    simp

/-- A set is read back from its written form exactly when no member holds a semicolon. -/
theorem parse_render_iff {s : TagSet} :
    parse s.render = .ok s ↔ ∀ raw ∈ s.raws, ';' ∉ raw.toList := by
  constructor
  · intro h raw hraw
    have hmem : raw ∈ s.rawSet := List.mem_toFinset.mpr hraw
    rw [rawSet_of_parse h, List.mem_toFinset] at hmem
    exact not_mem_of_mem_memberTexts hmem
  · intro h
    refine parse_eq_ok_iff.mpr ⟨s.tags, ?_, ofList_tags s⟩
    rw [memberTexts_render h]
    exact Script.mapM_parse_raws s.tags

/-! ### Looking for a tag -/

/-- A tag is looked for by halving, and is found exactly when some member has its text. -/
theorem contains_eq_hasRaw (s : TagSet) (t : Tag) : s.contains t = s.hasRaw t.raw := by
  have hfound := Ascending.exists_search_eq_taken_iff s.sorted t.raw
  rw [Bool.eq_iff_iff, hasRaw_eq_true_iff, ← hfound, contains]
  cases Ascending.search Tag.raw t.raw s.tags <;> simp

/-- A tag is put in the place where looking for it ends. -/
theorem tags_insert (s : TagSet) (t : Tag) :
    (s.insert t).tags = (Ascending.search Tag.raw t.raw s.tags).put t s.tags :=
  Ascending.insert_eq_put s.sorted fun _ _ => Tag.ext_raw

/-! ### Swaps -/

/-- A set with tags swapped for others, one swap after the other. -/
def swapped (s : TagSet) (swaps : List (Tag × Tag)) : TagSet :=
  swaps.foldl (fun s swap => s.replace swap.1 swap.2) s

/-- Templates are replaced by what they stand for. -/
theorem exists_replace_of_replacements {s pool : TagSet} {sets : List TagSet}
    (h : s.replacements pool = .ok (some sets)) {s' : TagSet} (hs' : s' ∈ sets) :
    ∃ old new, s' = s.replace old new := by
  rw [replacements] at h
  split at h
  · cases h
  · next template _ =>
    obtain ⟨found, -, h⟩ := bind_eq_ok_iff.mp h
    have h := pure_eq_ok_iff.mp h
    split at h
    · cases h
    · cases h
      obtain ⟨new, -, rfl⟩ := List.mem_map.mp hs'
      exact ⟨template, new, rfl⟩

end TagSet

namespace Worklist

variable {pool : TagSet}

/-- What is kept in a run that comes to sets. -/
theorem exists_keeps_of_resultWithin {n : Nat} {pending resolved sets : List TagSet}
    (h : resultWithin pool n ⟨pending, resolved⟩ = some (.ok sets)) :
    ∃ kept, Keeps pool pending kept ∧ sets = resolved.reverse ++ kept := by
  induction n generalizing pending resolved with
  | zero => cases h
  | succ n ih =>
    cases pending with
    | nil =>
      simp only [resultWithin, round, Option.some.injEq, Except.ok.injEq] at h
      exact ⟨[], .nil, by rw [← h, List.append_nil]⟩
    | cons s rest =>
      simp only [resultWithin, round] at h
      cases hs : s.replacements pool with
      | error fault =>
        rw [hs] at h
        cases h
      | ok found =>
        rw [hs] at h
        cases found with
        | none =>
          obtain ⟨kept, hkept, hsets⟩ := ih h
          exact ⟨s :: kept, .keep hs hkept, by rw [hsets]; simp⟩
        | some sets' =>
          obtain ⟨kept, hkept, hsets⟩ := ih h
          exact ⟨kept, .replace hs hkept, hsets⟩

/-- Every set that is kept comes of one that was there, by swapping tags. -/
theorem Keeps.exists_swapped {pending kept : List TagSet} (h : Keeps pool pending kept)
    {s' : TagSet} (hs' : s' ∈ kept) : ∃ s ∈ pending, ∃ swaps, s' = s.swapped swaps := by
  induction h with
  | nil => cases hs'
  | @keep s rest kept h hrest ih =>
    rcases List.mem_cons.mp hs' with rfl | hs'
    · exact ⟨s', List.mem_cons_self, [], rfl⟩
    · obtain ⟨s₀, hs₀, hswaps⟩ := ih hs'
      exact ⟨s₀, List.mem_cons_of_mem _ hs₀, hswaps⟩
  | @replace s sets rest kept h hrest ih =>
    obtain ⟨s₀, hs₀, swaps, rfl⟩ := ih hs'
    rcases List.mem_append.mp hs₀ with hs₀ | hs₀
    · obtain ⟨old, new, rfl⟩ := TagSet.exists_replace_of_replacements h hs₀
      exact ⟨s, List.mem_cons_self, (old, new) :: swaps, rfl⟩
    · exact ⟨s₀, List.mem_cons_of_mem _ hs₀, swaps, rfl⟩

end Worklist

namespace TagSet

/-- What a set stands for comes of it by swapping tags. -/
theorem exists_swapped_of_expand {s pool : TagSet} {sets : List TagSet}
    (h : s.expand pool = .ok sets) {s' : TagSet} (hs' : s' ∈ sets) :
    ∃ swaps, s' = s.swapped swaps := by
  rw [expand] at h
  cases hrun : Worklist.run pool { pending := [s] } with
  | none =>
    rw [hrun] at h
    cases h
  | some result =>
    rw [hrun, Option.getD_some] at h
    subst h
    obtain ⟨n, hn⟩ := Worklist.run_eq_some_iff.mp hrun
    obtain ⟨kept, hkept, rfl⟩ := Worklist.exists_keeps_of_resultWithin hn
    obtain ⟨s₀, hs₀, hswaps⟩ := hkept.exists_swapped hs'
    rw [List.mem_singleton] at hs₀
    exact hs₀ ▸ hswaps

/-! ### Histories -/

/-- How tag sets come about, with the texts that have been put in and not taken out. -/
inductive Made : TagSet → Finset String → Prop
  | parse {text : String} {s : TagSet} (h : TagSet.parse text = .ok s) :
      Made s (memberTexts text).toFinset
  | ofList (tags : List Tag) : Made (.ofList tags) (tags.map Tag.raw).toFinset
  | ofRaws {texts : List String} {s : TagSet} (h : TagSet.ofRaws texts = .ok s) :
      Made s (texts.map trimmed).toFinset
  | insert {s : TagSet} {raws : Finset String} (h : Made s raws) (t : Tag) :
      Made (s.insert t) (Insert.insert t.raw raws)
  | eraseRaw {s : TagSet} {raws : Finset String} (h : Made s raws) (raw : String) :
      Made (s.eraseRaw raw) (raws.erase raw)
  | replace {s : TagSet} {raws : Finset String} (h : Made s raws) (old new : Tag) :
      Made (s.replace old new) (Insert.insert new.raw (raws.erase old.raw))
  | union {sets : List TagSet} {raws : TagSet → Finset String} (h : ∀ s ∈ sets, Made s (raws s)) :
      Made (.union sets) (sets.toFinset.biUnion raws)

/-- The texts after tags have been swapped for others. -/
def swappedTexts (raws : Finset String) (swaps : List (Tag × Tag)) : Finset String :=
  swaps.foldl (fun raws swap => Insert.insert swap.2.raw (raws.erase swap.1.raw)) raws

variable {s : TagSet} {raws : Finset String}

/-- Every way to make a set acts on the texts as the operation on sets does. -/
theorem Made.rawSet_eq (h : s.Made raws) : s.rawSet = raws := by
  induction h with
  | parse h => exact rawSet_of_parse h
  | ofList tags => exact rawSet_ofList tags
  | ofRaws h => exact rawSet_of_ofRaws h
  | insert _ t ih => rw [rawSet_insert, ih]
  | eraseRaw _ raw ih => rw [rawSet_eraseRaw, ih]
  | replace _ old new ih => rw [rawSet_replace, ih]
  | union _ ih =>
    rw [rawSet_union]
    exact Finset.biUnion_congr rfl fun s hs => ih s (List.mem_toFinset.mp hs)

/-- Swapping tags for others makes a set of the swapped texts. -/
theorem Made.swapped (h : s.Made raws) (swaps : List (Tag × Tag)) :
    (s.swapped swaps).Made (swappedTexts raws swaps) := by
  induction swaps generalizing s raws with
  | nil => exact h
  | cons swap swaps ih => exact ih (h.replace swap.1 swap.2)

/-- Sets with the same texts are equal. -/
theorem rawSet_inj {s s' : TagSet} : s.rawSet = s'.rawSet ↔ s = s' := by
  refine ⟨fun h => ext_mem fun t => ?_, fun h => h ▸ rfl⟩
  rw [mem_tags_iff_hasRaw, mem_tags_iff_hasRaw, ← mem_rawSet, ← mem_rawSet, h]

/-- However a set comes about, its texts are those that were put in and not taken out, in the order
of their bytes and each once. A tag is found by halving exactly when its text is there, and a new
one is put where that search ends. Sets with the same members are equal, as are sets with the same
texts, and a set is any list of its members once that is sorted and rid of repetitions. A set is
read back from its written form unless a member holds a semicolon. What the templates of a set stand
for comes of the set by swapping tags, so it has such a history too. -/
theorem made_set_canonical (h : s.Made raws) :
    s.rawSet = raws ∧ (s.raws.map utf8).Pairwise (· < ·) ∧
    (∀ t : Tag, s.contains t = s.hasRaw t.raw ∧ (s.hasRaw t.raw = true ↔ t.raw ∈ raws) ∧
      (s.insert t).tags = (Ascending.search Tag.raw t.raw s.tags).put t s.tags) ∧
    (∀ s' : TagSet, s = s' ↔ ∀ t, t ∈ s ↔ t ∈ s') ∧
    (∀ tags : List Tag, (∀ t, t ∈ s ↔ t ∈ tags) ↔ s.tags = (tags.mergeSort upTo).dedup) ∧
    (∀ {s' : TagSet} {raws' : Finset String}, s'.Made raws' → (s = s' ↔ raws = raws')) ∧
    (TagSet.parse s.render = .ok s ↔ ∀ raw ∈ raws, ';' ∉ raw.toList) ∧
    ∀ {pool : TagSet} {sets : List TagSet}, s.expand pool = .ok sets → ∀ s' ∈ sets,
      ∃ swaps, s' = s.swapped swaps ∧ s'.Made (swappedTexts raws swaps) := by
  have hraws := h.rawSet_eq
  refine ⟨hraws, s.pairwise_utf8_raws, fun t => ⟨s.contains_eq_hasRaw t, ?_, s.tags_insert t⟩,
    fun s' => ⟨fun hsame t => hsame ▸ Iff.rfl, ext_mem⟩, fun _ => forall_mem_iff_tags_eq,
    fun h' => ?_, ?_, ?_⟩
  · rw [← hraws, mem_rawSet]
  · rw [← hraws, ← h'.rawSet_eq, rawSet_inj]
  · simp only [parse_render_iff, ← hraws, rawSet, List.mem_toFinset]
  · -- the sets on the way are not listed; what is left of them are the swaps
    intro pool sets hsets s' hs'
    obtain ⟨swaps, rfl⟩ := exists_swapped_of_expand hsets hs'
    exact ⟨swaps, rfl, h.swapped swaps⟩

/-- Of a crown, a king and a robe that are read in some order, with a coin that becomes two and the
king gone, the coins, the crown and the robe are left. -/
theorem regalia_canonical :
    ∃ worn : TagSet, worn.Made {"robe", "coin.3", "crown"} ∧
      worn.raws = ["coin.3", "crown", "robe"] ∧ worn.contains Purse.three = true ∧
      worn.contains Purse.two = false ∧ TagSet.parse "coin.3;crown;robe" = .ok worn := by
  have hfacts : (TagSet.parse "robe;crown; king ;crown;").toOption.map (fun s =>
      (((s.insert Purse.two).replace Purse.two Purse.three).eraseRaw "king").raws) =
      some ["coin.3", "crown", "robe"] := by decide +kernel
  obtain ⟨s, hs, hraws⟩ := exists_ok_of_map hfacts
  have hmade := (((Made.parse hs).insert Purse.two).replace Purse.two Purse.three).eraseRaw "king"
  generalize ((s.insert Purse.two).replace Purse.two Purse.three).eraseRaw "king" = worn
    at hraws hmade
  have htexts : (Insert.insert Purse.three.raw
      ((Insert.insert Purse.two.raw (memberTexts "robe;crown; king ;crown;").toFinset).erase
        Purse.two.raw)).erase "king" = {"robe", "coin.3", "crown"} := by decide +kernel
  rw [htexts] at hmade
  obtain ⟨-, -, hcontains, -, -, -, hread, -⟩ := made_set_canonical hmade
  have hrender : worn.render = "coin.3;crown;robe" := by
    rw [render, hraws]
    rfl
  refine ⟨worn, hmade, hraws, ?_, ?_, ?_⟩
  · rw [(hcontains _).1, (hcontains _).2.1]
    decide
  · rw [(hcontains _).1, ← Bool.not_eq_true, (hcontains _).2.1]
    decide
  · exact hrender ▸ hread.mpr (by decide)

end TagSet

end StoryTape
