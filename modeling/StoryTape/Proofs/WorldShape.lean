import StoryTape.Proofs.NetEffect

/-!
# What operations leave of the shape of a world

Operations address locations by name, a location vanishes with its last tag and is made anew at the
end of the list. All the same the list stays a world: names stay distinct, nothing that tags were
taken from stays behind empty, and the locations that no operation names stay what they are, in
their order. Only three sorts of operations do anything, and operations applied in two parts do what
they do together.
-/

namespace StoryTape

open Text

/-- Whether an operation can change the world or the scene. -/
def Operation.acts : Operation → Bool
  | .removeTag .. | .appendTag .. | .goto _ => true
  | _ => false

/-- Whether an operation takes something out of a place or puts something in. -/
def Operation.touches (place : String) : Operation → Bool
  | .removeTag _ name | .appendTag _ name => sameName name place
  | _ => false

/-- Whether no operation takes something out of a location or puts something in. -/
def untouched (ops : List Operation) (l : Location) : Bool := !ops.any (·.touches l.name)

/-- A set that a tag was put into is not empty. -/
theorem TagSet.isEmpty_insert (s : TagSet) (t : Tag) : (s.insert t).isEmpty = false := by
  by_contra hempty
  have hnone := hasRaw_eq_false_of_isEmpty (Bool.not_eq_false _ ▸ hempty) t.raw
  rw [hasRaw_insert.mpr (.inl rfl)] at hnone
  cases hnone

namespace World

variable {w w' : World} {scene scene' : String} {op : Operation} {ops : List Operation}

/-! ### Parts of a list -/

/-- An operation that only records leaves world and scene alone. -/
theorem applyOne_of_not_acts (h : op.acts = false) : w.applyOne scene op = .ok (w, scene) := by
  cases op <;> first | rfl | cases h

/-- Operations that do nothing can be left out. -/
theorem applyInScene_filter_acts (w : World) (scene : String) (ops : List Operation) :
    w.applyInScene scene (ops.filter Operation.acts) = w.applyInScene scene ops := by
  induction ops generalizing w scene with
  | nil => rfl
  | cons op ops ih =>
    cases hacts : op.acts with
    | true =>
      rw [List.filter_cons_of_pos hacts, applyInScene, applyInScene]
      exact congrArg _ (funext fun after => ih after.1 after.2)
    | false =>
      rw [List.filter_cons_of_neg (by simp [hacts]), ih, applyInScene, applyOne_of_not_acts hacts]
      rfl

/-- Operations in two parts: the second part is applied to what the first leads to. -/
theorem applyInScene_append (w : World) (scene : String) (ops ops' : List Operation) :
    w.applyInScene scene (ops ++ ops') =
      w.applyInScene scene ops >>= fun after => after.1.applyInScene after.2 ops' := by
  induction ops generalizing w scene with
  | nil => rfl
  | cons op ops ih =>
    rw [List.cons_append, applyInScene, applyInScene, bind_assoc]
    exact congrArg _ (funext fun after => ih after.1 after.2)

/-! ### Locations that are not named -/

section Frame

variable {p : Location → Bool} {name : String} {ls ls' : List Location}

/-- Taking a tag out leaves the other locations as they are, in their order. -/
theorem filter_takeTag {tag : String} (hp : ∀ l, sameName l.name name = true → ¬ p l = true)
    (h : takeTag tag name ls = some ls') : ls'.filter p = ls.filter p := by
  induction ls generalizing ls' with
  | nil => cases h
  | cons l ls ih =>
    rw [takeTag] at h
    split at h
    · next hname =>
      rw [List.filter_cons_of_neg (hp l hname)]
      cases h
      split
      · rfl
      · exact List.filter_cons_of_neg (hp ⟨l.name, _⟩ hname)
    · obtain ⟨rest, hrest, rfl⟩ := Option.map_eq_some_iff.mp h
      rw [List.filter_cons, List.filter_cons, ih hrest]

/-- So does putting a tag in. -/
theorem filter_putTag {tag : Tag} (hp : ∀ l, sameName l.name name = true → ¬ p l = true) :
    (putTag tag name ls).filter p = ls.filter p := by
  induction ls with
  | nil => exact List.filter_cons_of_neg (hp ⟨name, _⟩ (sameName_refl name))
  | cons l ls ih =>
    rw [putTag]
    split
    · next hname =>
      rw [List.filter_cons_of_neg (hp l hname)]
      exact List.filter_cons_of_neg (hp ⟨l.name, _⟩ hname)
    · rw [List.filter_cons, List.filter_cons, ih]

/-- One operation leaves the locations that it does not touch as they are, in their order. -/
theorem filter_applyOne (hp : ∀ l, op.touches l.name = true → ¬ p l = true)
    (h : w.applyOne scene op = .ok (w', scene')) :
    w'.locations.filter p = w.locations.filter p := by
  obtain ⟨-, ⟨tag, name, ls, rfl, htake, rfl⟩ | ⟨text, name, tag, rfl, -, rfl⟩ | ⟨-, -, rfl⟩⟩ :=
    applyOne_cases h
  · exact filter_takeTag (fun l hl => hp l (sameName_symm hl)) htake
  · exact filter_putTag fun l hl => hp l (sameName_symm hl)
  · rfl

/-- A list of operations does. -/
theorem filter_applyInScene (hp : ∀ op ∈ ops, ∀ l, op.touches l.name = true → ¬ p l = true)
    (h : w.applyInScene scene ops = .ok (w', scene')) :
    w'.locations.filter p = w.locations.filter p := by
  induction ops generalizing w scene with
  | nil =>
    cases h
    rfl
  | cons op ops ih =>
    obtain ⟨w₁, scene₁, hop, hrest⟩ := applyInScene_cons h
    obtain ⟨hfirst, hothers⟩ := List.forall_mem_cons.mp hp
    rw [ih hothers hrest, filter_applyOne hfirst hop]

end Frame

/-! ### Locations that tags are taken from -/

/-- No location of the given name is empty. -/
def NotBare (w : World) (place : String) : Prop :=
  ∀ l ∈ w.locations, sameName l.name place = true → l.tags.isEmpty = false

section Bare

variable {name place : String} {ls ls' : List Location}

/-- A place is not bare when neither the first location nor another of its name is empty. -/
theorem notBare_cons {l : Location} :
    NotBare ⟨l :: ls⟩ place ↔
      (sameName l.name place = true → l.tags.isEmpty = false) ∧ NotBare ⟨ls⟩ place :=
  List.forall_mem_cons

/-- A location that a tag is taken from does not stay behind empty. -/
theorem notBare_takeTag_self {tag : String} (hd : DistinctNames ls)
    (h : takeTag tag name ls = some ls') : NotBare ⟨ls'⟩ name := by
  induction ls generalizing ls' with
  | nil => cases h
  | cons l ls ih =>
    obtain ⟨hhead, htail⟩ := List.pairwise_cons.mp hd
    rw [takeTag] at h
    split at h
    · next hname =>
      -- the other locations have other names
      have hothers : NotBare ⟨ls⟩ name := by
        intro l' hl' hname'
        have halike := sameName_trans hname (sameName_symm hname')
        rw [hhead l' hl'] at halike
        cases halike
      cases h
      split
      · exact hothers
      · next hleft => exact notBare_cons.mpr ⟨fun _ => by simpa using hleft, hothers⟩
    · next hname =>
      obtain ⟨rest, hrest, rfl⟩ := Option.map_eq_some_iff.mp h
      exact notBare_cons.mpr ⟨fun halike => absurd halike hname, ih htail hrest⟩

/-- Taking a tag out makes no location empty. -/
theorem NotBare.takeTag {tag : String} (hbare : NotBare ⟨ls⟩ place)
    (h : takeTag tag name ls = some ls') : NotBare ⟨ls'⟩ place := by
  induction ls generalizing ls' with
  | nil => cases h
  | cons l ls ih =>
    obtain ⟨hfirst, hothers⟩ := notBare_cons.mp hbare
    rw [World.takeTag] at h
    split at h
    · cases h
      split
      · exact hothers
      · next hleft => exact notBare_cons.mpr ⟨fun _ => by simpa using hleft, hothers⟩
    · obtain ⟨rest, hrest, rfl⟩ := Option.map_eq_some_iff.mp h
      exact notBare_cons.mpr ⟨hfirst, ih hothers hrest⟩

/-- Putting a tag in makes no location empty. -/
theorem NotBare.putTag {tag : Tag} (hbare : NotBare ⟨ls⟩ place) :
    NotBare ⟨putTag tag name ls⟩ place := by
  induction ls with
  | nil => exact notBare_cons.mpr ⟨fun _ => rfl, nofun⟩
  | cons l ls ih =>
    obtain ⟨hfirst, hothers⟩ := notBare_cons.mp hbare
    rw [World.putTag]
    split
    · exact notBare_cons.mpr ⟨fun _ => l.tags.isEmpty_insert tag, hothers⟩
    · exact notBare_cons.mpr ⟨hfirst, ih hothers⟩

end Bare

/-- No operation makes a location empty. -/
theorem NotBare.applyOne {place : String} (hbare : w.NotBare place)
    (h : w.applyOne scene op = .ok (w', scene')) : w'.NotBare place := by
  obtain ⟨-, ⟨tag, name, ls, -, htake, rfl⟩ | ⟨text, name, tag, -, -, rfl⟩ | ⟨-, -, rfl⟩⟩ :=
    applyOne_cases h
  · exact hbare.takeTag htake
  · exact hbare.putTag
  · exact hbare

/-- Operations leave no place bare that was not. -/
theorem NotBare.applyInScene {place : String} (hbare : w.NotBare place)
    (h : w.applyInScene scene ops = .ok (w', scene')) : w'.NotBare place := by
  induction ops generalizing w scene with
  | nil =>
    cases h
    exact hbare
  | cons op ops ih =>
    obtain ⟨w₁, scene₁, hop, hrest⟩ := applyInScene_cons h
    exact ih (hbare.applyOne hop) hrest

/-- Where tags were taken from, nothing is left behind empty. -/
theorem Distinct.notBare_applyInScene (hw : w.Distinct)
    (h : w.applyInScene scene ops = .ok (w', scene')) {tag name : String}
    (hop : .removeTag tag name ∈ ops) : w'.NotBare name := by
  obtain ⟨before, after, rfl⟩ := List.append_of_mem hop
  rw [applyInScene_append, bind_eq_ok_iff] at h
  obtain ⟨⟨w₁, scene₁⟩, hbefore, h⟩ := h
  obtain ⟨w₂, scene₂, htaken, hafter⟩ := applyInScene_cons h
  have hw₁ := hw.applyInScene hbefore
  refine NotBare.applyInScene ?_ hafter
  obtain ⟨-, ⟨_, _, ls, hop, htake, rfl⟩ | ⟨_, _, _, hop, -⟩ | ⟨hop, -⟩⟩ := applyOne_cases htaken
  · cases hop
    exact notBare_takeTag_self hw₁ htake
  · cases hop
  · exact absurd rfl (hop tag name)

end World

/-- **Operations keep a world in shape.** Operations other than removing, appending and going
somewhere can be left out, and two lists one behind the other do what the second does where the
first leads, or fail where the first fails. Where a list applies to a world of distinct names, names
are distinct afterwards, no location is left behind empty that tags were to be taken from, and the
locations that nothing was to be taken from or put into are the same, in the same order. -/
theorem applied_operations_keep_shape (w : World) (scene : String) :
    (∀ ops, w.applyInScene scene (ops.filter Operation.acts) = w.applyInScene scene ops) ∧
    (∀ ops ops', w.applyInScene scene (ops ++ ops') =
      w.applyInScene scene ops >>= fun after => after.1.applyInScene after.2 ops') ∧
    (w.Distinct → ∀ ops w' scene', w.applyInScene scene ops = .ok (w', scene') →
      w'.Distinct ∧
      (∀ tag name, .removeTag tag name ∈ ops →
        ∀ l ∈ w'.locations, sameName l.name name = true → l.tags.isEmpty = false) ∧
      w'.locations.filter (untouched ops) = w.locations.filter (untouched ops)) := by
  refine ⟨w.applyInScene_filter_acts scene, w.applyInScene_append scene, ?_⟩
  intro hw ops w' scene' h
  refine ⟨hw.applyInScene h, fun tag name hop => hw.notBare_applyInScene h hop, ?_⟩
  refine World.filter_applyInScene (fun op hop l htouches => ?_) h
  rw [untouched, Bool.not_eq_true', Bool.not_eq_false, List.any_eq_true]
  exact ⟨op, hop, htouches⟩

/-! A regent is deposed: the hall vanishes and comes back, the cellar was empty before, and only the
garden is left alone. -/

namespace Dethroned

def regent : Tag := ⟨"regent", ⟨.plain, "regent", none, .unset⟩, by decide, by rfl⟩
def sceptre : Tag := ⟨"sceptre", ⟨.plain, "sceptre", none, .unset⟩, by decide, by rfl⟩
def rose : Tag := ⟨"rose", ⟨.plain, "rose", none, .unset⟩, by decide, by rfl⟩
def orb : Tag := ⟨"orb", ⟨.plain, "orb", none, .unset⟩, by decide, by rfl⟩

/-- A place that nothing happens to. -/
def garden : Location := ⟨"GARDEN", .singleton rose⟩

/-- A regent in the hall, an empty cellar and a sceptre in hand. -/
def before : World :=
  ⟨[⟨"HALL", .singleton regent⟩, ⟨"CELLAR", .empty⟩, garden, ⟨"DRAG", .singleton sceptre⟩]⟩

/-- The regent moves to the tower, and hall and hands are emptied. -/
def operations : List Operation :=
  [.goto "TOWER", .assertTagIn "regent" "HALL", .removeTag "regent" "hall",
    .removeTag "sceptre" "drag", .appendTag "regent" "TOWER", .removeTag "rat" "Cellar",
    .pushText "BELL", .appendTag "orb" "Hall"]

/-- The hall is there again for the orb, and the cellar is gone. -/
def after : World :=
  ⟨[garden, ⟨"TOWER", .singleton regent⟩, ⟨"Hall", .singleton orb⟩]⟩

/-- What happens in the hall keeps the shape of the world. -/
theorem shape_kept :
    before.Distinct ∧ before.applyInScene "HALL" operations = .ok (after, "TOWER") ∧
      before.applyInScene "HALL" (operations.filter Operation.acts) = .ok (after, "TOWER") ∧
      after.Distinct ∧
      (∀ l ∈ after.locations, sameName l.name "hall" = true → l.tags.isEmpty = false) ∧
      (∀ l ∈ after.locations, sameName l.name "Cellar" = true → l.tags.isEmpty = false) ∧
      before.locations.filter (untouched operations) = [garden] ∧
      after.locations.filter (untouched operations) = [garden] := by
  have hdistinct : before.Distinct := by decide
  have happlied : before.applyInScene "HALL" operations = .ok (after, "TOWER") := by rfl
  have hgarden : before.locations.filter (untouched operations) = [garden] := by rfl
  obtain ⟨hacts, -, hshape⟩ := applied_operations_keep_shape before "HALL"
  obtain ⟨hafter, hfull, hsame⟩ := hshape hdistinct operations after "TOWER" happlied
  exact ⟨hdistinct, happlied, (hacts operations).trans happlied, hafter,
    hfull "regent" "hall" (by decide), hfull "rat" "Cellar" (by decide), hgarden,
    hsame.trans hgarden⟩

end Dethroned

end StoryTape
