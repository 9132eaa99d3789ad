import StoryTape.Proofs.Acceptance
import StoryTape.Proofs.SetChoices

/-!
# Where a context tag is found

A context tag asks for an identifier in the scenes around. It is found in the current scene if that
holds the identifier, and else in the first scene that does. The location that the tag is bound to
is never looked at. So a bound tag of an accepted rule is found where it is bound to exactly when
the choice among the scenes falls on that location.
-/

namespace StoryTape

open Text

/-! ### What one tag adds to an accepted rule -/

/-- What is recorded and done where a context tag is found. -/
def Tag.foundIn (t : Tag) (place : String) : List Operation :=
  .assertTagIn t.value place :: if t.mode = .plain then [.removeTag t.value place] else []

/-- The place an operation on a tag is about. -/
def Operation.place? : Operation → Option String
  | .assertTagIn _ place | .assertNoTag _ place | .appendTag _ place | .removeTag _ place =>
    some place
  | _ => none

/-- What is done where a context tag is found is done in that place. -/
theorem place?_of_mem_foundIn {t : Tag} {place : String} {op : Operation}
    (h : op ∈ t.foundIn place) : op.place? = some place := by
  rcases List.mem_cons.mp h with rfl | h
  · rfl
  · split at h
    · rw [List.mem_singleton.mp h]
      rfl
    · cases h

/-! ### The scene that is preferred -/

namespace World

variable {w : World} {t : Tag} {scene scene' value : String} {l : Location}

/-- The scene an identifier is looked for in when several hold it: the current one, or the first
when the current one does not hold it. -/
structure Prefers (w : World) (scene value : String) (l : Location) : Prop where
  mem : l ∈ w.scenes
  held : l.tags.hasValue value = true
  chosen : sameName l.name scene = true ∨
    (∀ l' ∈ w.scenes, sameName l'.name scene = true → l'.tags.hasValue value = false) ∧
      ∃ before after, w.scenes = before ++ l :: after ∧ ∀ l' ∈ before, l'.tags.hasValue value = false

/-- The first holder is the first scene with the identifier, none before it having it. -/
theorem head?_holders_eq_some_iff : (w.holders value).head? = some l ↔
    l.tags.hasValue value = true ∧ ∃ before after, w.scenes = before ++ l :: after ∧
      ∀ l' ∈ before, l'.tags.hasValue value = false := by
  rw [holders, List.head?_filter, List.find?_eq_some_iff_append]
  simp only [Bool.not_eq_true']

/-- The current scene is not among the holders exactly when it does not hold the identifier. -/
theorem find?_holders_eq_none_iff :
    (w.holders value).reverse.find? (sameName ·.name scene) = none ↔
      ∀ l ∈ w.scenes, sameName l.name scene = true → l.tags.hasValue value = false := by
  simp only [List.find?_eq_none, List.mem_reverse, mem_holders, and_imp, Bool.not_eq_true]
  refine forall₂_congr fun l _ => ?_
  cases l.tags.hasValue value <;> simp

/-- In a world of distinct names at most one holder is the current scene. -/
theorem Distinct.find?_holders_eq_some_iff (hw : w.Distinct) :
    (w.holders value).reverse.find? (sameName ·.name scene) = some l ↔
      l ∈ w.holders value ∧ sameName l.name scene = true := by
  constructor
  · intro h
    exact ⟨List.mem_reverse.mp (List.mem_of_find?_eq_some h), by simpa using List.find?_some h⟩
  · rintro ⟨hl, hsame⟩
    cases hfound : (w.holders value).reverse.find? (sameName ·.name scene) with
    | none =>
      obtain ⟨hscene, hheld⟩ := mem_holders.mp hl
      rw [find?_holders_eq_none_iff.mp hfound l hscene hsame] at hheld
      cases hheld
    | some l' =>
      have hl' := List.mem_reverse.mp (List.mem_of_find?_eq_some hfound)
      have hsame' : sameName l'.name scene = true := by simpa using List.find?_some hfound
      have hmem {l : Location} (h : l ∈ w.holders value) : l ∈ w.locations :=
        (mem_scenes.mp (mem_holders.mp h).1).1
      rw [DistinctNames.eq_of_sameName hw (hmem hl') (hmem hl)
        (sameName_trans hsame' (sameName_symm hsame))]

/-- In a world of distinct names the holder that is found is the preferred one. -/
theorem Distinct.holder?_eq_some_iff (hw : w.Distinct) :
    w.holder? scene value = some l ↔ w.Prefers scene value l := by
  rw [holder?, Option.or_eq_some_iff, hw.find?_holders_eq_some_iff, find?_holders_eq_none_iff,
    mem_holders, head?_holders_eq_some_iff]
  constructor
  · rintro (⟨⟨hscene, hheld⟩, hsame⟩ | ⟨hnone, hheld, before, after, hsplit, hbefore⟩)
    · exact ⟨hscene, hheld, .inl hsame⟩
    · have hscene : l ∈ w.scenes := hsplit ▸ List.mem_append_right before List.mem_cons_self
      exact ⟨hscene, hheld, .inr ⟨hnone, before, after, hsplit, hbefore⟩⟩
  · rintro ⟨hscene, hheld, hsame | ⟨hnone, hfirst⟩⟩
    · exact .inl ⟨⟨hscene, hheld⟩, hsame⟩
    · exact .inr ⟨hnone, hheld, hfirst⟩

/-- A context tag that asks for its identifier does its work in the scene where it is found. -/
theorem checkAround_eq_some_iff (hform : t.isComparison = false) (hmode : t.mode ≠ .forbidden)
    {ops : List Operation} : w.checkAround scene t = some ops ↔
      ∃ l, w.holder? scene t.value = some l ∧ ops = t.foundIn l.name := by
  rw [checkAround, hform, checkContext]
  cases w.holder? scene t.value with
  | none => cases h : t.mode <;> simp [h] at hmode ⊢
  | some l => cases h : t.mode <;> simp [h, Tag.foundIn, @eq_comm _ _ ops] at hmode ⊢

/-- The scene's spelling does not matter to what is preferred. -/
theorem Prefers.congr (hsame : sameName scene' scene = true) (h : w.Prefers scene' value l) :
    w.Prefers scene value l := by
  obtain ⟨hscene, hheld, hcurrent | ⟨hnone, hfirst⟩⟩ := h
  · exact ⟨hscene, hheld, .inl (sameName_trans hcurrent hsame)⟩
  · refine ⟨hscene, hheld, .inr ⟨fun l' hl' h => hnone l' hl' ?_, hfirst⟩⟩
    exact sameName_trans h (sameName_symm hsame)

end World

/-- **A context tag goes where its identifier is preferred.** In a world of distinct names, a
context tag of an accepted rule that asks for its identifier is found in the preferred scene, and
what is done about it is done there. If it is bound to a location, then that location holds the
identifier and what is done is about it exactly when it is the preferred scene. -/
theorem context_tag_bound_iff {r : Rule} {scene : String} {w : World} {a : Accepted}
    (hw : w.Distinct) (haccept : r.accept scene w = .ok (some a)) {t : Tag}
    (ht : t ∈ r.context.tags) (hform : t.isComparison = false) (hmode : t.mode ≠ .forbidden) :
    ∃ l, w.Prefers scene t.value l ∧ w.checkAround scene t = some (t.foundIn l.name) ∧
      t.foundIn l.name <:+: a.operations ∧
      ∀ place, t.location = some place →
        ((w.HoldsValue t.value place ∧
            ∀ op ∈ t.foundIn l.name, ∃ p, op.place? = some p ∧ sameName p place = true) ↔
          sameName l.name place = true) := by
  obtain ⟨p, rfl⟩ := Rule.accept_eq_ok_some_iff.mp haccept
  obtain ⟨block, hblock, hin⟩ := exists_infix_of_mem p.around_eq ht
  obtain ⟨l, hfound, rfl⟩ := (World.checkAround_eq_some_iff hform hmode).mp hblock
  -- The tag is looked for around the scene as the world spells it.
  have hprefers := (hw.holder?_eq_some_iff.mp hfound).congr (World.mem_of_location? p.here_eq).2
  have haround : p.around <:+: p.operations :=
    ⟨p.move ++ Rule.meet r.target p.here.name ++ p.paid ++ p.gained, p.laid, rfl⟩
  refine ⟨l, hprefers, ?_, hin.trans haround, fun place _ => ⟨?_, fun hsame => ⟨?_, ?_⟩⟩⟩
  · exact (World.checkAround_eq_some_iff hform hmode).mpr
      ⟨l, hw.holder?_eq_some_iff.mpr hprefers, rfl⟩
  · rintro ⟨-, habout⟩
    obtain ⟨p, hp, hsame⟩ := habout _ List.mem_cons_self
    cases hp
    exact hsame
  · exact ⟨l, (World.mem_scenes.mp hprefers.mem).1, hsame, hprefers.held⟩
  · exact fun op hop => ⟨l.name, place?_of_mem_foundIn hop, hsame⟩

/-! ### One sword or two

The dragon of the cave is fought with the sword that lies there, while another hangs at home. When
there is none in the cave, the one at home is taken from afar. -/

namespace Swords

def foe : Tag := ⟨"?dragon", ⟨.required, "dragon", none, .unset⟩, by decide, by rfl⟩
def caveSword : Tag := ⟨"sword<CAVE>", ⟨.plain, "sword", some "CAVE", .unset⟩, by decide, by rfl⟩
def hero : Tag := Purse.hero

/-- The sword of the cave is used up. -/
def fight : Rule := { target := foe, context := .singleton caveSword }

/-- A sword at home and one in the cave. -/
def two : World :=
  ⟨[⟨"HOME", .ofList [hero, Inn.sword]⟩, ⟨"CAVE", .ofList [Inn.dragon, Inn.sword]⟩]⟩

/-- A sword at home only. -/
def one : World := ⟨[⟨"HOME", .ofList [hero, Inn.sword]⟩, ⟨"CAVE", .singleton Inn.dragon⟩]⟩

/-- What the fight does when the sword is found in a place. -/
def fought (place : String) : Accepted :=
  ⟨none, [.assertTagIn "dragon" "CAVE", .assertTagIn "sword" place, .removeTag "sword" place]⟩

/-- With two swords, the one that lies in the cave is used up. -/
theorem fight_two : fight.accept "cave" two = .ok (some (fought "CAVE")) := by rfl

/-- With no sword in the cave, the one at home is used up. -/
theorem fight_one : fight.accept "cave" one = .ok (some (fought "HOME")) := by rfl

end Swords

/-- The current scene holds a sword, which is the one that is bound to it. -/
theorem swords_two_bound :
    Swords.two.Distinct ∧ Swords.caveSword ∈ Swords.fight.context.tags ∧
      ∃ l, Swords.two.Prefers "cave" "sword" l ∧
        Swords.two.checkAround "cave" Swords.caveSword = some (Swords.caveSword.foundIn l.name) ∧
        Swords.caveSword.foundIn l.name <:+: (Swords.fought "CAVE").operations ∧
        ∀ place, Swords.caveSword.location = some place →
          ((Swords.two.HoldsValue "sword" place ∧
              ∀ op ∈ Swords.caveSword.foundIn l.name,
                ∃ p, op.place? = some p ∧ sameName p place = true) ↔
            sameName l.name place = true) :=
  ⟨by decide, List.mem_singleton.mpr rfl, context_tag_bound_iff (by decide) Swords.fight_two
    (List.mem_singleton.mpr rfl) (by decide) (by decide)⟩

/-- The sword is bound to the cave, which holds none, and is taken from home. -/
theorem swords_one_elsewhere :
    Swords.one.Distinct ∧ Swords.fight.accept "cave" Swords.one = .ok (some (Swords.fought "HOME")) ∧
      Swords.caveSword ∈ Swords.fight.context.tags ∧ Swords.caveSword.isComparison = false ∧
      Swords.caveSword.location = some "CAVE" ∧ ¬ Swords.one.HoldsValue "sword" "CAVE" ∧
      .removeTag "sword" "HOME" ∈ (Swords.fought "HOME").operations := by
  refine ⟨by decide, Swords.fight_one, List.mem_singleton.mpr rfl, by decide, rfl, ?_, by decide⟩
  rintro ⟨l, hl, hsame, hheld⟩
  revert l
  decide

end StoryTape
