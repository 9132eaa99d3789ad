import StoryTape.Proofs.CounterPlaces
import StoryTape.Proofs.WrittenGroups
import StoryTape.Script.StateLine

/-!
# The canonical text of a world

Worlds are compared by their canonical texts. Of a world that was read off a state line every
location is written with a name and tags that are read back, so its canonical text, put behind a
label, is a state line again, and of the same locations in the order they are written in. Two such
worlds therefore have one text exactly when they have the same locations; the one exception is the
world without locations, which is written as if it had an empty `DRAG`.
-/

namespace StoryTape

open Text

namespace World

/-! ### The order of writing -/

/-- Locations of one sort go by their texts, and others come before `DRAG`. -/
theorem writtenBefore_iff {a b : Location} : writtenBefore a b = true ↔
    isDrag a.name = isDrag b.name ∧ a.render ≤ b.render ∨
      isDrag a.name = false ∧ isDrag b.name = true := by
  rw [writtenBefore]
  cases isDrag a.name <;> cases isDrag b.name <;> simp

/-- The order of writing is transitive. -/
theorem writtenBefore_trans (a b c : Location) (hab : writtenBefore a b = true)
    (hbc : writtenBefore b c = true) : writtenBefore a c = true := by
  rw [writtenBefore_iff] at *
  rcases hab with ⟨hsort, hle⟩ | ⟨ha, hb⟩
  · rw [hsort]
    exact hbc.imp_left fun h => ⟨h.1, String.le_trans hle h.2⟩
  · rcases hbc with ⟨hsort, -⟩ | ⟨hb', -⟩
    · exact .inr ⟨ha, hsort ▸ hb⟩
    · exact absurd (hb'.symm.trans hb) Bool.false_ne_true

/-- Of two locations one is written before the other. -/
theorem writtenBefore_total (a b : Location) :
    (writtenBefore a b || writtenBefore b a) = true := by
  rw [Bool.or_eq_true, writtenBefore_iff, writtenBefore_iff]
  cases isDrag a.name <;> cases isDrag b.name <;> simp [String.le_total]

/-- Of two locations written before each other the texts are the same. -/
theorem render_eq_of_writtenBefore {a b : Location} (hab : writtenBefore a b = true)
    (hba : writtenBefore b a = true) : a.render = b.render := by
  rw [writtenBefore_iff] at *
  rcases hab with ⟨hsort, hab⟩ | ⟨ha, hb⟩
  · rcases hba with ⟨-, hba⟩ | ⟨hb, ha⟩
    · exact String.le_antisymm hab hba
    · exact absurd (hb.symm.trans (hsort.symm.trans ha)) Bool.false_ne_true
  · rcases hba with ⟨hsort, -⟩ | ⟨hb', -⟩
    · exact absurd (ha.symm.trans (hsort.symm.trans hb)) Bool.false_ne_true
    · exact absurd (hb'.symm.trans hb) Bool.false_ne_true

/-- Ordering the locations leaves them the same. -/
theorem ordered_perm (w : World) : w.ordered.Perm w.locations := List.mergeSort_perm _ _

/-- The ordered locations stand in the order of writing. -/
theorem pairwise_ordered (w : World) : w.ordered.Pairwise fun a b => writtenBefore a b = true :=
  List.pairwise_mergeSort writtenBefore_trans writtenBefore_total w.locations

/-- The locations that the canonical text of a world shows. -/
def written (w : World) : List Location :=
  if w.isEmpty then [⟨dragName, .empty⟩] else w.ordered

/-- What is written of a world are its locations. -/
theorem perm_written {w : World} (h : w.locations ≠ []) : w.written.Perm w.locations := by
  have hsome : w.isEmpty = false := List.isEmpty_eq_false_iff.mpr h
  rw [written, hsome]
  exact w.ordered_perm

/-- Of a world without locations the empty hands are written. -/
theorem written_of_nil {w : World} (h : w.locations = []) : w.written = [⟨dragName, .empty⟩] := by
  rw [written, isEmpty, h]
  rfl

/-- Of every world something is written. -/
theorem written_ne_nil (w : World) : w.written ≠ [] := by
  by_cases hnone : w.locations = []
  · rw [written_of_nil hnone]
    exact List.cons_ne_nil _ _
  · intro hnil
    have hperm := perm_written hnone
    rw [hnil] at hperm
    exact hnone (List.nil_perm.mp hperm)

/-- The text of locations, each behind a space. -/
def spacedText (ls : List Location) : List Char := ls.flatMap fun l => ' ' :: l.render.toList

/-- The canonical text of a world is made of what is written of it. -/
theorem canonical_eq (w : World) : w.canonical = "==" ++ String.ofList (spacedText w.written) := by
  obtain ⟨l, ls, hwritten⟩ := List.exists_cons_of_ne_nil w.written_ne_nil
  rw [← String.toList_inj, canonical]
  by_cases hnone : w.isEmpty = true
  · rw [if_pos hnone, written, if_pos hnone]
    rfl
  · rw [hwritten, if_neg hnone]
    rw [written, if_neg hnone] at hwritten
    rw [hwritten, List.map_cons, Text.join_cons]
    simp [spacedText, List.flatMap_map]

/-- Worlds have one canonical text when the locations shown are written alike. -/
theorem sameAs_iff_spacedText {a b : World} :
    a.sameAs b = true ↔ spacedText a.written = spacedText b.written := by
  rw [sameAs, beq_iff_eq, canonical_eq, canonical_eq, String.append_right_inj, ← String.toList_inj,
    String.toList_ofList, String.toList_ofList]

end World

/-! ### Locations that are read back -/

namespace Script

/-- A location with an identifier for its name and tags with the texts of tokens. -/
structure LocationOfTokens (l : Location) : Prop where
  named : l.name.toList ≠ []
  isIdentChar : ∀ c ∈ l.name.toList, isIdentChar c = true
  tags : OfTokens l.tags

/-- What a location is read as before its tags are made out. -/
def shapeOf (l : Location) : List Char × List (List Char) :=
  (l.name.toList, l.tags.raws.map String.toList)

/-- A character of an identifier makes no gap. -/
theorem isGap_of_isIdentChar {c : Char} (h : isIdentChar c = true) : isGap c = false := by
  have hspace := ne_of_isIdentChar h (not_isIdentChar ' ' (by decide))
  have htab := ne_of_isIdentChar h (not_isIdentChar '\t' (by decide))
  simp [isGap, hspace, htab]

/-- A space is skipped. -/
theorem skipGap_space (s : List Char) : skipGap (' ' :: s) = skipGap s := rfl

/-- A gap in front of tokens is skipped. -/
theorem readTokens_space (s : List Char) : (readTokens (' ' :: s)).1 = (readTokens s).1 ∧
    skipGap (readTokens (' ' :: s)).2 = skipGap (readTokens s).2 := by
  rw [readTokens, readTokens, skipGap_space]
  split
  · exact ⟨rfl, rfl⟩
  · exact ⟨rfl, skipGap_space s⟩

/-- A written set is read behind a space, up to its bracket. -/
theorem exists_readTokens_space {tags : TagSet} (h : OfTokens tags) (rest : List Char) :
    ∃ after, readTokens (' ' :: (tags.render.toList ++ ']' :: rest)) =
      (tags.raws.map String.toList, after) ∧ skipGap after = ']' :: rest := by
  have hclosing : ']' ∈ [')', ']', '\x7d'] := by decide
  have htokens := readTokens_append h.isToken_raws hclosing rest
  rw [TagSet.render, String.toList_ofList]
  obtain ⟨hread, hskip⟩ :=
    readTokens_space (join [';'] (tags.raws.map String.toList) ++ ']' :: rest)
  rw [htokens] at hread hskip
  refine ⟨(readTokens (' ' :: (join [';'] (tags.raws.map String.toList) ++ ']' :: rest))).2, ?_,
    hskip.trans (skipGap_cons (by decide) rest)⟩
  exact Prod.ext hread rfl

/-- A written location is read. -/
theorem readLocation_render {l : Location} (h : LocationOfTokens l) (rest : List Char) :
    readLocation (l.render.toList ++ rest) =
      some (l.name.toList, l.tags.raws.map String.toList, rest) := by
  have htext : l.render.toList ++ rest =
      '[' :: (l.name.toList ++ ',' :: ' ' :: (l.tags.render.toList ++ ']' :: rest)) := by
    simp [Location.render]
  have hcomma : isIdentChar ',' = false := by decide +kernel
  have hname : skipGap (l.name.toList ++ ',' :: ' ' :: (l.tags.render.toList ++ ']' :: rest)) =
      l.name.toList ++ ',' :: ' ' :: (l.tags.render.toList ++ ']' :: rest) := by
    obtain ⟨c, name, hcons⟩ := List.exists_cons_of_ne_nil h.named
    rw [hcons]
    exact skipGap_cons (isGap_of_isIdentChar (h.isIdentChar c (hcons ▸ List.mem_cons_self))) _
  obtain ⟨after, hread, hend⟩ := exists_readTokens_space h.tags rest
  rw [htext]
  simp [readLocation, skipGap_cons, hname, List.takeWhile_append_of_pos h.isIdentChar,
    List.dropWhile_append_of_pos h.isIdentChar, hcomma, hread, hend, isGap, h.named]

/-- A space in front of locations does not matter. -/
theorem readLocations_space (rounds : Nat) (s : List Char) :
    readLocations rounds (' ' :: s) = readLocations rounds s := by
  cases rounds <;> rfl

/-- Written locations are read one after the other. -/
theorem readLocations_spacedText {ls : List Location} (h : ∀ l ∈ ls, LocationOfTokens l)
    {rounds : Nat} (hrounds : ls.length ≤ rounds) :
    readLocations rounds (World.spacedText ls) = some (ls.map shapeOf) := by
  induction ls generalizing rounds with
  | nil => cases rounds <;> rfl
  | cons l ls ih =>
    obtain ⟨hl, hls⟩ := List.forall_mem_cons.mp h
    obtain ⟨rounds, rfl⟩ :=
      Nat.exists_eq_add_one.mpr (Nat.lt_of_lt_of_le ls.length.succ_pos hrounds)
    have htext : World.spacedText (l :: ls) = ' ' :: (l.render.toList ++ World.spacedText ls) := by
      simp [World.spacedText]
    have hmore : atEnd (l.render.toList ++ World.spacedText ls) = false := by
      simp [Location.render, atEnd, skipGap_cons, isGap]
    rw [htext, readLocations_space, readLocations, hmore]
    simp only [Bool.false_eq_true, if_false, readLocation_render hl, bind, Option.bind_some,
      ih hls (Nat.le_of_succ_le_succ hrounds)]
    rfl

/-- The location of a shape. -/
def locationOf (shape : List Char × List (List Char)) : Checked Location := do
  return ⟨String.ofList shape.1, ← setOfTokens .state shape.2⟩

/-- A location is made out again from what it is read as. -/
theorem locationOf_shapeOf (l : Location) : locationOf (shapeOf l) = .ok l := by
  rw [locationOf, shapeOf, setOfTokens_raws]
  simp [bind, Except.bind, pure, Except.pure]

/-- Locations are made out again from what they are read as. -/
theorem mapM_locationOf (ls : List Location) : (ls.map shapeOf).mapM locationOf = .ok ls := by
  rw [List.mapM_map]
  refine (mapM_eq_ok (g := id) fun l _ => locationOf_shapeOf l).trans ?_
  rw [List.map_id]

/-- The text of locations that are read back says which they are. -/
theorem spacedText_inj {ls ls' : List Location} (h : ∀ l ∈ ls, LocationOfTokens l)
    (h' : ∀ l ∈ ls', LocationOfTokens l) (htext : World.spacedText ls = World.spacedText ls') :
    ls = ls' := by
  have hread := readLocations_spacedText h (Nat.le_add_right ls.length ls'.length)
  have hread' := readLocations_spacedText h' (Nat.le_add_left ls'.length ls.length)
  rw [htext, hread', Option.some.injEq] at hread
  have hlocations := mapM_locationOf ls
  rw [← hread, mapM_locationOf] at hlocations
  exact (Except.ok.inj hlocations).symm

/-- Locations with one text are the same. -/
theorem render_inj {a b : Location} (ha : LocationOfTokens a) (hb : LocationOfTokens b)
    (h : a.render = b.render) : a = b := by
  have htext : World.spacedText [a] = World.spacedText [b] := by simp [World.spacedText, h]
  have hone := spacedText_inj (by simpa using ha) (by simpa using hb) htext
  exact List.singleton_inj.mp hone

/-! ### Worlds that are read back -/

/-- A world whose locations are read back, each under a name of its own. -/
structure WorldOfTokens (w : World) : Prop where
  distinct : w.Distinct
  locations : ∀ l ∈ w.locations, LocationOfTokens l

/-- The empty hands are read back. -/
theorem locationOfTokens_drag : LocationOfTokens ⟨dragName, .empty⟩ where
  named := by decide
  isIdentChar := List.all_eq_true.mp (by decide +kernel)
  tags := List.forall_mem_nil _

namespace WorldOfTokens

variable {a b w : World}

/-- What is written of such a world is read back, location by location. -/
theorem written (h : WorldOfTokens w) : ∀ l ∈ w.written, LocationOfTokens l := by
  by_cases hnone : w.locations = []
  · rw [World.written_of_nil hnone]
    simpa using locationOfTokens_drag
  · exact fun l hl => h.locations l ((World.perm_written hnone).mem_iff.mp hl)

/-- What is written of such a world stands under distinct names. -/
theorem distinct_written (h : WorldOfTokens w) : DistinctNames w.written := by
  by_cases hnone : w.locations = []
  · rw [World.written_of_nil hnone]
    exact List.pairwise_singleton _ _
  · refine ((World.perm_written hnone).pairwise_iff fun {x y} hxy => ?_).mpr h.distinct
    exact Bool.eq_false_iff.mpr fun hyx => Bool.eq_false_iff.mp hxy (sameName_symm hyx)

/-- The order of writing does not depend on the order of the locations. -/
theorem ordered_eq_iff (ha : WorldOfTokens a) (hb : WorldOfTokens b) :
    a.ordered = b.ordered ↔ a.locations.Perm b.locations := by
  constructor
  · intro h
    exact a.ordered_perm.symm.trans (h ▸ b.ordered_perm)
  · intro h
    have hperm := (a.ordered_perm.trans h).trans b.ordered_perm.symm
    refine List.Perm.eq_of_pairwise (fun l l' hl hl' hbefore hbehind => ?_) a.pairwise_ordered
      b.pairwise_ordered hperm
    exact render_inj (ha.locations l (a.ordered_perm.mem_iff.mp hl))
      (hb.locations l' (b.ordered_perm.mem_iff.mp hl'))
      (World.render_eq_of_writtenBefore hbefore hbehind)

/-- Only of the empty hands themselves are the empty hands written. -/
theorem written_eq_drag_iff (h : w.locations ≠ []) :
    w.written = [⟨dragName, .empty⟩] ↔ w.locations = [⟨dragName, .empty⟩] := by
  have hperm := World.perm_written h
  constructor
  · intro hwritten
    rw [hwritten] at hperm
    exact List.perm_singleton.mp hperm.symm
  · intro hlocations
    rw [hlocations] at hperm
    exact List.perm_singleton.mp hperm

/-- Two worlds have one text when they have the same locations, or one has none and the other an
empty `DRAG`. -/
theorem sameAs_iff (ha : WorldOfTokens a) (hb : WorldOfTokens b) : a.sameAs b = true ↔
    a.locations.Perm b.locations ∨
      a.locations = [] ∧ b.locations = [⟨dragName, .empty⟩] ∨
      a.locations = [⟨dragName, .empty⟩] ∧ b.locations = [] := by
  have hwritten : a.sameAs b = true ↔ a.written = b.written := by
    rw [World.sameAs_iff_spacedText]
    exact ⟨spacedText_inj ha.written hb.written, congrArg World.spacedText⟩
  rw [hwritten]
  by_cases hnone : a.locations = [] <;> by_cases hnone' : b.locations = []
  · simp [World.written_of_nil, hnone, hnone']
  · rw [World.written_of_nil hnone, eq_comm, written_eq_drag_iff hnone']
    simp [hnone, hnone', List.nil_perm]
  · rw [World.written_of_nil hnone', written_eq_drag_iff hnone]
    simp [hnone, hnone', List.perm_nil]
  · have hordered : a.written = a.ordered ∧ b.written = b.ordered := by
      simp [World.written, World.isEmpty, hnone, hnone']
    rw [hordered.1, hordered.2, ha.ordered_eq_iff hb]
    simp [hnone, hnone']

end WorldOfTokens

/-! ### State lines -/

/-- Setting the tags of a name keeps names and tags that are read back. -/
theorem locationOfTokens_setTags {name : String} {tags : TagSet} {ls : List Location}
    (hnew : LocationOfTokens ⟨name, tags⟩) (h : ∀ l ∈ ls, LocationOfTokens l) :
    ∀ l ∈ World.setTags name tags ls, LocationOfTokens l := by
  induction ls with
  | nil => simpa [World.setTags] using hnew
  | cons l ls ih =>
    obtain ⟨hl, hls⟩ := List.forall_mem_cons.mp h
    rw [World.setTags]
    split
    · exact List.forall_mem_cons.mpr ⟨⟨hl.named, hl.isIdentChar, hnew.tags⟩, hls⟩
    · exact List.forall_mem_cons.mpr ⟨hl, ih hls⟩

/-- A world made of locations that are read back is read back. -/
theorem worldOfTokens_ofLocations {ls : List Location} (h : ∀ l ∈ ls, LocationOfTokens l) :
    WorldOfTokens (.ofLocations ls) where
  distinct := World.distinct_ofLocations ls
  locations := by
    have hfold : ∀ (ls : List Location) (w : World), (∀ l ∈ ls, LocationOfTokens l) →
        (∀ l ∈ w.locations, LocationOfTokens l) →
        ∀ l ∈ (ls.foldl (fun w l => w.withLocation l.name l.tags) w).locations,
          LocationOfTokens l := by
      intro ls
      induction ls with
      | nil => exact fun _ _ hw => hw
      | cons l ls ih =>
        intro w hls hw
        obtain ⟨hl, hls⟩ := List.forall_mem_cons.mp hls
        exact ih _ hls (locationOfTokens_setTags hl hw)
    exact hfold ls .empty h nofun

/-- What is read as a location has the name and the tags of one that is read back. -/
theorem of_readLocation {s name rest : List Char} {tokens : List (List Char)}
    (h : readLocation s = some (name, tokens, rest)) :
    name ≠ [] ∧ (∀ c ∈ name, isIdentChar c = true) ∧ ∀ token ∈ tokens, IsToken token := by
  rw [readLocation] at h
  split at h
  swap
  · cases h
  dsimp only at h
  split at h
  · cases h
  next hname =>
  split at h
  swap
  · cases h
  split at h
  swap
  · cases h
  cases h
  exact ⟨mt List.isEmpty_iff.mpr hname, fun c hc => List.all_eq_true.mp List.all_takeWhile c hc,
    fun _ => isToken_of_mem_readTokens⟩

/-- What is read as locations has identifiers for names and tokens for tags. -/
theorem of_mem_readLocations {rounds : Nat} {s : List Char}
    {shapes : List (List Char × List (List Char))} (h : readLocations rounds s = some shapes) :
    ∀ shape ∈ shapes, shape.1 ≠ [] ∧ (∀ c ∈ shape.1, isIdentChar c = true) ∧
      ∀ token ∈ shape.2, IsToken token := by
  induction rounds generalizing s shapes with
  | zero =>
    rw [readLocations] at h
    split at h
    · cases h
      nofun
    · cases h
  | succ rounds ih =>
    rw [readLocations] at h
    split at h
    · cases h
      nofun
    · simp only [bind, Option.bind_eq_some_iff] at h
      obtain ⟨⟨name, tokens, rest⟩, hfirst, others, hothers, hshapes⟩ := h
      cases hshapes
      exact List.forall_mem_cons.mpr ⟨of_readLocation hfirst, ih hothers⟩

/-- The world of a state line is read back. -/
theorem worldOfTokens_of_parse {source : String} {line : StateLine}
    (h : parseStateLine source = .ok line) : WorldOfTokens line.world := by
  rw [parseStateLine] at h
  dsimp only at h
  split at h
  · cases h
  · split at h
    · cases h
    · next shapes hshapes =>
      obtain ⟨locations, hlocations, h⟩ := bind_eq_ok_iff.mp h
      cases h
      refine worldOfTokens_ofLocations fun l hl => ?_
      obtain ⟨shape, hshape, hl⟩ := exists_of_mem_mapM_ok hlocations hl
      obtain ⟨tags, htags, hl⟩ := bind_eq_ok_iff.mp hl
      cases hl
      obtain ⟨hnamed, hident, htokens⟩ := of_mem_readLocations hshapes shape hshape
      exact ⟨by simpa using hnamed, by simpa using hident, ofTokens_of_setOfTokens htokens htags⟩

end Script

namespace World

/-- A world made of locations under different names has just these. -/
theorem ofLocations_of_distinct {ls : List Location} (h : DistinctNames ls) :
    ofLocations ls = ⟨ls⟩ := by
  have hfold : ∀ (ls before : List Location), DistinctNames (before ++ ls) →
      ls.foldl (fun (w : World) l => w.withLocation l.name l.tags) ⟨before⟩ = ⟨before ++ ls⟩ := by
    intro ls
    induction ls with
    | nil => simp
    | cons l ls ih =>
      intro before hnames
      have hnew : ¬ HasPlace ⟨before⟩ l.name := by
        rintro ⟨l', hl', hname⟩
        have hdiff := (List.pairwise_append.mp hnames).2.2 l' hl' l List.mem_cons_self
        exact absurd hname (Bool.eq_false_iff.mp hdiff)
      rw [List.foldl_cons, withLocation_of_new hnew, List.append_cons before l ls]
      exact ih _ (List.append_cons before l ls ▸ hnames)
  exact hfold ls [] h

end World

namespace Script

/-- A space behind a text that is not blank is trimmed off. -/
theorem trim_append_space {s : List Char} (h : trim s ≠ []) : trim (s ++ [' ']) = trim s := by
  have hstart : trimStart s ≠ [] := by
    intro hnil
    rw [trim, hnil] at h
    exact h rfl
  have hopen : trimStart (s ++ [' ']) = trimStart s ++ [' '] := by
    rw [trimStart, List.dropWhile_append]
    exact if_neg (mt List.isEmpty_iff.mp hstart)
  rw [trim, trim, hopen]
  simp [trimEnd, dropEndWhile, isBlank]

/-- A written location takes up a space and a bracket at least. -/
theorem two_mul_length_le_spacedText (ls : List Location) :
    2 * ls.length ≤ (World.spacedText ls).length := by
  induction ls with
  | nil => exact Nat.zero_le _
  | cons l ls ih =>
    have htext : World.spacedText (l :: ls) = ' ' :: (l.render.toList ++ World.spacedText ls) := by
      simp [World.spacedText]
    have hbracket : 1 ≤ l.render.toList.length := by simp [Location.render]
    rw [htext, List.length_cons, List.length_cons, List.length_append]
    omega

/-- Written locations behind a label are a state line. -/
theorem parseStateLine_spacedText {ls : List Location} (hne : ls ≠ [])
    (h : ∀ l ∈ ls, LocationOfTokens l) (hnames : DistinctNames ls) {label : String}
    (hopen : '[' ∉ label.toList) (hlabel : trim label.toList ≠ []) :
    parseStateLine (label ++ String.ofList (World.spacedText ls)) =
      .ok ⟨String.ofList (trim label.toList), ⟨ls⟩⟩ := by
  obtain ⟨l, ls, rfl⟩ := List.exists_cons_of_ne_nil hne
  obtain ⟨more, hmore⟩ : ∃ more, World.spacedText (l :: ls) = ' ' :: '[' :: more := by
    simp [World.spacedText, Location.render]
  have hsource : (label ++ String.ofList (World.spacedText (l :: ls))).toList =
      label.toList ++ [' '] ++ '[' :: more := by
    simp [hmore]
  have hkept : ∀ c ∈ label.toList ++ [' '], (c != '[') = true := by
    intro c hc
    rw [bne_iff_ne]
    rcases List.mem_append.mp hc with hc | hc
    · exact ne_of_mem_of_not_mem hc hopen
    · exact ne_of_mem_of_not_mem hc (by decide)
  have hread : readLocations ('[' :: more).length ('[' :: more) = some ((l :: ls).map shapeOf) := by
    rw [← readLocations_space, ← hmore]
    refine readLocations_spacedText h ?_
    have hlength := two_mul_length_le_spacedText (l :: ls)
    rw [hmore] at hlength
    simp only [List.length_cons] at hlength ⊢
    omega
  have hlabelled : (trim label.toList).isEmpty = false := List.isEmpty_eq_false_iff.mpr hlabel
  have hlocations : ((l :: ls).map shapeOf).mapM locationOf = .ok (l :: ls) :=
    mapM_locationOf (l :: ls)
  have hbracket : ('[' != '[') = false := rfl
  rw [parseStateLine, hsource, List.takeWhile_append_of_pos hkept,
    List.dropWhile_append_of_pos hkept, List.takeWhile_cons_of_neg (by simp),
    List.dropWhile_cons_of_neg (by simp), List.append_nil, trim_append_space hlabel, hlabelled,
    hread]
  refine bind_eq_ok_iff.mpr ⟨_, hlocations, ?_⟩
  rw [World.ofLocations_of_distinct hnames]
  rfl

/-- **Canonical texts are faithful.** The canonical text of the world of a state line, its opening
sign apart, is a state line behind any label, and its world counts as the same and has the same
locations up to their order; a world without locations comes back with an empty `DRAG`. Two worlds
of state lines count as the same exactly when they have the same locations up to their order, or one
has none and the other only an empty `DRAG`. -/
theorem canonical_faithful {source : String} {line : StateLine}
    (h : parseStateLine source = .ok line) :
    (∃ text, line.world.canonical = "==" ++ text ∧
      ∀ label : String, '[' ∉ label.toList → trim label.toList ≠ [] →
        ∃ again, parseStateLine (label ++ text) = .ok ⟨String.ofList (trim label.toList), again⟩ ∧
          again.sameAs line.world = true ∧
          (line.world.locations ≠ [] → again.locations.Perm line.world.locations) ∧
          (line.world.locations = [] → again.locations = [⟨"DRAG", .empty⟩])) ∧
      ∀ {source' : String} {line' : StateLine}, parseStateLine source' = .ok line' →
        (line.world.sameAs line'.world = true ↔
          line.world.locations.Perm line'.world.locations ∨
            line.world.locations = [] ∧ line'.world.locations = [⟨"DRAG", .empty⟩] ∨
            line.world.locations = [⟨"DRAG", .empty⟩] ∧ line'.world.locations = []) := by
  have hline := worldOfTokens_of_parse h
  refine ⟨⟨_, line.world.canonical_eq, fun label hopen hlabel => ?_⟩,
    fun h' => hline.sameAs_iff (worldOfTokens_of_parse h')⟩
  have hread := parseStateLine_spacedText line.world.written_ne_nil hline.written
    hline.distinct_written hopen hlabel
  refine ⟨⟨line.world.written⟩, hread, ?_, World.perm_written, World.written_of_nil⟩
  refine ((worldOfTokens_of_parse hread).sameAs_iff hline).mpr ?_
  by_cases hnone : line.world.locations = []
  · exact .inr (.inr ⟨World.written_of_nil hnone, hnone⟩)
  · exact .inl (World.perm_written hnone)

/-- A castle with a guard at home, a bare cave and a hat in hand is written with the hat last. -/
theorem castle_read_back :
    ∃ line again, parseStateLine "CASTLE [CAVE,] [Home, guard; door] [drag, hat]" = .ok line ∧
      line.world.canonical = "== [CAVE, ] [Home, door;guard] [drag, hat]" ∧
      parseStateLine "Ruin [CAVE, ] [Home, door;guard] [drag, hat]" = .ok ⟨"Ruin", again⟩ ∧
      again.sameAs line.world = true ∧ again.locations.Perm line.world.locations := by
  have hfacts :
      (parseStateLine "CASTLE [CAVE,] [Home, guard; door] [drag, hat]").toOption.map
        (fun line => (line.world.locations.map Location.render,
          decide (line.world.locations.Pairwise fun a b => World.writtenBefore a b = true))) =
      some (["[CAVE, ]", "[Home, door;guard]", "[drag, hat]"], true) := by decide +kernel
  obtain ⟨line, hline, hsame⟩ := exists_ok_of_map hfacts
  obtain ⟨hrender, hordered⟩ := Prod.mk.inj hsame
  have hsome : line.world.locations ≠ [] := by
    intro hnil
    rw [hnil] at hrender
    cases hrender
  have hcanonical : line.world.canonical = "== [CAVE, ] [Home, door;guard] [drag, hat]" := by
    have htexts : line.world.locations.map (·.render.toList) =
        (line.world.locations.map Location.render).map String.toList := by simp
    rw [World.canonical, World.isEmpty, List.isEmpty_eq_false_iff.mpr hsome, World.ordered,
      List.mergeSort_of_pairwise (of_decide_eq_true hordered), htexts, hrender]
    rfl
  obtain ⟨⟨text, htext, hread⟩, -⟩ := canonical_faithful hline
  obtain rfl : " [CAVE, ] [Home, door;guard] [drag, hat]" = text :=
    (String.append_right_inj "==").mp (hcanonical.symm.trans htext)
  obtain ⟨again, hagain, hkept, hperm, -⟩ := hread "Ruin" (by decide) (by decide)
  exact ⟨line, again, hline, hcanonical, hagain, hkept, hperm hsome⟩

end Script

end StoryTape
