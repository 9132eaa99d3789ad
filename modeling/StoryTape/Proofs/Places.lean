import StoryTape.Proofs.NetEffect

/-!
# Which places there are

A location vanishes with its last tag and is made anew when something is put where there is none,
so a list of operations may take away the very place that a later one of them takes from. When
nothing is taken from a place after a tag was put there, it can be read off the list which places
are left, and with that whether the operations apply at all: they fail only on a text that reads as
no tag, and on taking from a place that is gone.
-/

namespace StoryTape

open Text

namespace World

variable {w w' : World} {scene scene' place : String} {ops : List Operation}

/-- There is a location of the given name. -/
def HasPlace (w : World) (place : String) : Prop := ∃ l ∈ w.locations, sameName l.name place = true

/-- A place is the first location or one of the others. -/
theorem hasPlace_cons {l : Location} {ls : List Location} :
    HasPlace ⟨l :: ls⟩ place ↔ sameName l.name place = true ∨ HasPlace ⟨ls⟩ place := by
  simp [HasPlace]

/-- A place is there when its location is found. -/
theorem hasPlace_iff_location? : w.HasPlace place ↔ ∃ l, w.location? place = some l := by
  constructor
  · rintro ⟨l, hl, hname⟩
    rw [← Option.isSome_iff_exists]
    exact List.find?_isSome.mpr ⟨l, hl, hname⟩
  · rintro ⟨l, hl⟩
    obtain ⟨hmem, hname⟩ := mem_of_location? hl
    exact ⟨l, hmem, hname⟩

/-- Where a tag lies there is a place. -/
theorem HoldsRaw.hasPlace {raw : String} (h : w.HoldsRaw raw place) : w.HasPlace place := by
  obtain ⟨l, hl, hname, -⟩ := h
  exact ⟨l, hl, hname⟩

/-- A name that is alike names the same place. -/
theorem hasPlace_congr {name : String} (h : sameName name place = true) :
    w.HasPlace name ↔ w.HasPlace place :=
  ⟨fun ⟨l, hl, hname⟩ => ⟨l, hl, sameName_trans hname h⟩,
    fun ⟨l, hl, hname⟩ => ⟨l, hl, sameName_trans hname (sameName_symm h)⟩⟩

/-! ### One operation -/

/-- A tag can be taken from every place there is, held there or not. -/
theorem takeTag_isSome_iff {tag name : String} {ls : List Location} :
    (∃ ls', takeTag tag name ls = some ls') ↔ HasPlace ⟨ls⟩ name := by
  induction ls with
  | nil => simp [takeTag, HasPlace]
  | cons l ls ih =>
    rw [hasPlace_cons, takeTag]
    by_cases hname : sameName l.name name = true
    · simp [hname]
    · simp only [hname, Bool.false_eq_true, if_false, false_or, ← ih, Option.map_eq_some_iff]
      constructor
      · rintro ⟨_, rest, hrest, -⟩
        exact ⟨rest, hrest⟩
      · rintro ⟨rest, hrest⟩
        exact ⟨_, rest, hrest, rfl⟩

/-- Taking a tag from a place leaves it there only with something else in it. -/
theorem hasPlace_takeTag {tag name : String} {ls ls' : List Location} (hd : DistinctNames ls)
    (h : takeTag tag name ls = some ls') :
    HasPlace ⟨ls'⟩ place ↔ HasPlace ⟨ls⟩ place ∧
      (sameName name place = true → ∃ raw, HoldsRaw ⟨ls⟩ raw place ∧ raw ≠ tag) := by
  induction ls generalizing ls' with
  | nil => simp [takeTag] at h
  | cons l ls ih =>
    obtain ⟨hhead, htail⟩ := List.pairwise_cons.mp hd
    simp only [takeTag] at h
    split at h
    · next hname =>
      have hhere : sameName l.name place = sameName name place := sameName_congr hname place
      have hothers : sameName name place = true → ¬ HasPlace ⟨ls⟩ place := by
        rintro hp ⟨l₀, hl₀, hplace⟩
        have hll₀ := sameName_trans (hhere.trans hp) (sameName_symm hplace)
        rw [hhead l₀ hl₀] at hll₀
        cases hll₀
      split at h
      -- the location vanishes: nothing but the tag was in it
      · next hempty =>
        cases h
        rw [hasPlace_cons, hhere]
        by_cases hp : sameName name place = true
        · refine iff_of_false (hothers hp) fun hleft => ?_
          obtain ⟨raw, hraw, hne⟩ := hleft.2 hp
          rcases holdsRaw_cons.mp hraw with ⟨-, hraw⟩ | hraw
          · have hkept := TagSet.hasRaw_eraseRaw.mpr ⟨hne, hraw⟩
            rw [TagSet.hasRaw_eq_false_of_isEmpty hempty] at hkept
            cases hkept
          · exact hothers hp hraw.hasPlace
        · simp [hp]
      · next hleft =>
        cases h
        rw [hasPlace_cons, hasPlace_cons]
        refine ⟨fun hplace => ⟨hplace, fun hp => ?_⟩, And.left⟩
        obtain ⟨t, ht⟩ := List.exists_mem_of_ne_nil _ (mt List.isEmpty_iff.mpr hleft)
        have hkept : (l.tags.eraseRaw tag).hasRaw t.raw = true :=
          TagSet.hasRaw_eq_true_iff.mpr ⟨t, ht, rfl⟩
        obtain ⟨hne, hraw⟩ := TagSet.hasRaw_eraseRaw.mp hkept
        exact ⟨t.raw, holdsRaw_cons.mpr (.inl ⟨hhere.trans hp, hraw⟩), hne⟩
    · next hname =>
      obtain ⟨rest, hrest, rfl⟩ := Option.map_eq_some_iff.mp h
      rw [hasPlace_cons, hasPlace_cons, ih htail hrest]
      by_cases hl : sameName l.name place = true
      · have hother : ¬ sameName name place = true := fun hn =>
          hname (sameName_trans hl (sameName_symm hn))
        simp [hl, hother]
      · simp [hl, holdsRaw_cons]

/-- Putting a tag somewhere makes that place and no other. -/
theorem hasPlace_putTag {tag : Tag} {name : String} {ls : List Location} :
    HasPlace ⟨putTag tag name ls⟩ place ↔ HasPlace ⟨ls⟩ place ∨ sameName name place = true := by
  induction ls with
  | nil => simp [putTag, HasPlace]
  | cons l ls ih =>
    rw [putTag]
    split
    · next hname =>
      rw [hasPlace_cons, hasPlace_cons, ← sameName_congr hname place, or_right_comm, or_self]
    · rw [hasPlace_cons, hasPlace_cons, ih, or_assoc]

/-! ### A list of operations -/

/-- If anything is taken from the place, something that lies there is not. -/
def Keeps (w : World) (ops : List Operation) (place : String) : Prop :=
  (∃ text, Removes ops text place) → ∃ raw, w.HoldsRaw raw place ∧ ¬ Removes ops raw place

/-- The places there are at the end: those that something was put into, and those that were there
and kept a tag. -/
theorem Distinct.hasPlace_applyInScene (hw : w.Distinct) (hops : TakesFirst ops)
    (h : w.applyInScene scene ops = .ok (w', scene')) :
    w'.HasPlace place ↔
      (∃ text, Appends ops text place) ∨ (w.HasPlace place ∧ w.Keeps ops place) := by
  induction ops generalizing w scene with
  | nil =>
    cases h
    simp [Appends, Removes, Keeps]
  | cons op ops ih =>
    obtain ⟨w₁, scene₁, hop, hrest⟩ := applyInScene_cons h
    obtain ⟨hfirst, hothers⟩ := List.pairwise_cons.mp hops
    rw [ih (hw.applyOne hop) hothers hrest]
    simp only [Keeps, appends_cons op ops, removes_cons op ops, exists_or]
    obtain ⟨-, ⟨tag, name, ls, rfl, htake, rfl⟩ | ⟨text, name, tag, rfl, hparse, rfl⟩ |
      ⟨hremove, happend, rfl⟩⟩ := applyOne_cases hop
    · have hputs : ∀ raw, ¬ Appends [.removeTag tag name] raw place := by simp [Appends]
      simp only [hputs, exists_false, false_or, removes_removeTag, hasPlace_takeTag hw htake,
        holdsRaw_takeTag hw htake]
      by_cases hp : sameName name place = true
      · simp only [hp, and_true, exists_eq, true_or, true_imp_iff]
        refine or_congr_right ⟨?_, ?_⟩
        · rintro ⟨⟨hplace, raw, hraw, hne⟩, hkeeps⟩
          refine ⟨hplace, ?_⟩
          by_cases htakes : ∃ text, Removes ops text place
          · obtain ⟨raw, ⟨hraw, hne⟩, hno⟩ := hkeeps htakes
            exact ⟨raw, hraw, not_or.mpr ⟨hne, hno⟩⟩
          · exact ⟨raw, hraw, not_or.mpr ⟨hne, fun hr => htakes ⟨raw, hr⟩⟩⟩
        · rintro ⟨hplace, raw, hraw, hno⟩
          obtain ⟨hne, hno⟩ := not_or.mp hno
          exact ⟨⟨hplace, raw, hraw, hne⟩, fun _ => ⟨raw, ⟨hraw, hne⟩, hno⟩⟩
      · simp [hp]
    · have htakes : ∀ raw, ¬ Removes [.appendTag text name] raw place := by simp [Removes]
      simp only [htakes, exists_false, false_or, appends_appendTag, hasPlace_putTag,
        holdsRaw_putTag]
      by_cases hp : sameName name place = true
      -- what was put there is not followed by a removal
      · have hnone : ∀ raw, ¬ Removes ops raw place := by
          rintro raw ⟨name', hmem, hname'⟩
          have hdiff := hfirst _ hmem text raw name name' rfl rfl
          rw [sameName_trans hp (sameName_symm hname')] at hdiff
          cases hdiff
        simp [hp, hnone]
      · simp [hp]
    · have hputs : ∀ raw, ¬ Appends [op] raw place := by
        rintro raw ⟨name, hmem, -⟩
        exact happend raw name (List.mem_singleton.mp hmem).symm
      have htakes : ∀ raw, ¬ Removes [op] raw place := by
        rintro raw ⟨name, hmem, -⟩
        exact hremove raw name (List.mem_singleton.mp hmem).symm
      simp [hputs, htakes]

/-- Operations apply exactly when each of them does in the world that those before it lead to. -/
theorem applyInScene_isOk_iff :
    (∃ r, w.applyInScene scene ops = .ok r) ↔
      ∀ before op after w₁ scene₁, ops = before ++ op :: after →
        w.applyInScene scene before = .ok (w₁, scene₁) → ∃ r, w₁.applyOne scene₁ op = .ok r := by
  induction ops generalizing w scene with
  | nil => simp [applyInScene]
  | cons op ops ih =>
    constructor
    · rintro ⟨⟨w', scene'⟩, h⟩ before op' after w₁ scene₁ heq hbefore
      obtain ⟨w₂, scene₂, hop, hrest⟩ := applyInScene_cons h
      cases before with
      | nil =>
        obtain ⟨rfl, rfl⟩ := List.cons.inj heq
        cases hbefore
        exact ⟨_, hop⟩
      | cons first before =>
        obtain ⟨rfl, rfl⟩ := List.cons.inj heq
        obtain ⟨w₃, scene₃, hop', hbefore⟩ := applyInScene_cons hbefore
        rw [hop'] at hop
        cases hop
        exact ih.mp ⟨_, hrest⟩ before op' after w₁ scene₁ rfl hbefore
    · intro h
      obtain ⟨⟨w₁, scene₁⟩, hop⟩ := h [] op ops w scene rfl rfl
      have hrest : ∃ r, w₁.applyInScene scene₁ ops = .ok r := by
        refine ih.mpr fun before op' after w₂ scene₂ heq hbefore => ?_
        refine h (op :: before) op' after w₂ scene₂ (by rw [heq]; rfl) ?_
        rw [applyInScene, hop]
        exact hbefore
      obtain ⟨r, hr⟩ := hrest
      refine ⟨r, ?_⟩
      rw [applyInScene, hop]
      exact hr

/-- When operations apply, those before any of them do, and so does that one after them. -/
theorem exists_applied_of_split {before after : List Operation} {op : Operation}
    (h : ∃ r, w.applyInScene scene ops = .ok r) (hsplit : ops = before ++ op :: after) :
    ∃ w₁ scene₁, w.applyInScene scene before = .ok (w₁, scene₁) ∧
      ∃ r, w₁.applyOne scene₁ op = .ok r := by
  have heach := applyInScene_isOk_iff.mp h
  have hbefore : ∃ r, w.applyInScene scene before = .ok r := by
    refine applyInScene_isOk_iff.mpr fun first op' rest w₁ scene₁ heq hrun => ?_
    exact heach first op' (rest ++ op :: after) w₁ scene₁ (by rw [hsplit, heq]; simp) hrun
  obtain ⟨⟨w₁, scene₁⟩, hrun⟩ := hbefore
  exact ⟨w₁, scene₁, hrun, heach before op after w₁ scene₁ hsplit hrun⟩

end World

end StoryTape
