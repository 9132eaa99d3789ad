import StoryTape.Proofs.Acceptance

/-!
# When a rule is accepted

Acceptance goes through the phases of a rule in order and stops at the first that is refused. Its
verdict does not depend on that order: this file says what a rule asks of a world, tag by tag, and
shows that the rule is accepted exactly when the world gives all of it. Only the error has a place
in the order. It comes when the rule could start and the first gain that cannot be taken is paid.
-/

namespace StoryTape

open Text

/-! ### What a rule asks -/

/-- A tag with `!` asks that something is not found, any other tag that it is. -/
def Tag.Wants (t : Tag) (found : Prop) : Prop := if t.mode = .forbidden then ¬ found else found

/-- A level passes a comparison: `>=n` admits `n` and more, `<=n` admits `n` and less, and `a..b`
admits what lies between. -/
inductive Tag.Admits (t : Tag) (level : Int) : Prop
  | atLeast (form : t.isGreater = true) (low : t.meter.low ≤ level)
  | atMost (form : t.isLower = true) (high : level ≤ t.meter.high)
  | between (form : t.isRange = true) (low : t.meter.low ≤ level) (high : level ≤ t.meter.high)

namespace World

/-- The first location of a name. -/
def FirstNamed (w : World) (name : String) (l : Location) : Prop :=
  ∃ before after, w.locations = before ++ l :: after ∧ sameName l.name name = true ∧
    ∀ l' ∈ before, sameName l'.name name = false

/-- The player has an identifier in hand. -/
def InHand (w : World) (value : String) : Prop :=
  ∃ l, w.FirstNamed dragName l ∧ l.tags.hasValue value = true

/-- An identifier lies in some scene. -/
def LiesAround (w : World) (value : String) : Prop :=
  ∃ l ∈ w.scenes, l.tags.hasValue value = true

/-- A level in some scene passes a comparison, under an identifier that starts with that of the
comparison. -/
def SomeLevelPasses (w : World) (t : Tag) : Prop :=
  ∃ l ∈ w.scenes, ∃ test ∈ l.tags.tags, test.hasMeter = true ∧
    t.value.toList <+: test.value.toList ∧ t.Admits test.meter.value

/-- A gain can be taken: it has no sign and is not in hand. -/
def CanTake (w : World) (t : Tag) : Prop := t.mode = .plain ∧ ¬ w.InHand t.value

/-- The world around suits a context tag. A comparison without a sign asks for nothing. -/
def Suits (w : World) (t : Tag) : Prop :=
  if t.isComparison then t.mode = .plain ∨ t.Wants (w.SomeLevelPasses t)
  else t.Wants (w.LiesAround t.value)

/-- A payload tag can be laid out: it has no sign, is not bound to the player's hands, and does not
lie where it is bound to, which is the scene when nothing is said. -/
structure HasRoom (w : World) (scene : String) (t : Tag) : Prop where
  plain : t.mode = .plain
  placed : ∀ name, t.location = some name → isDrag name = false
  free : ∀ l ∈ w.scenes, sameName l.name (t.location.getD scene) = true →
    l.tags.hasValue t.value = false

end World

namespace Rule

/-- A rule can start in a location: this is the scene, it holds the target, the target leads to a
location if anywhere, and the cost can be paid. -/
structure Starts (r : Rule) (scene : String) (w : World) (here : Location) : Prop where
  named : w.FirstNamed scene here
  wanted : r.target.mode ≠ .forbidden
  met : here.tags.hasValue r.target.value = true
  leads : ∀ name, r.target.location = some name → ∃ l ∈ w.locations, sameName l.name name = true
  paid : ∀ t ∈ r.cost.tags,
    t.Wants (if r.drag then w.InHand t.value else here.tags.hasValue t.value = true)

/-- All that a rule asks for is given. -/
structure Applies (r : Rule) (scene : String) (w : World) (here : Location) : Prop extends
    r.Starts scene w here where
  gain : ∀ t ∈ r.gain.tags, w.CanTake t
  context : ∀ t ∈ r.context.tags, w.Suits t
  payload : ∀ t ∈ r.payload.tags, w.HasRoom here.name t

/-- The first gain that cannot be taken, and a cost tag has its identifier. -/
structure PaysFirst (r : Rule) (w : World) (t : Tag) : Prop where
  first : ∃ before after, r.gain.tags = before ++ t :: after ∧ ∀ g ∈ before, w.CanTake g
  refused : ¬ w.CanTake t
  paid : ∃ c ∈ r.cost.tags, c.value = t.value

end Rule

/-! ### What the checks answer -/

section Checks

variable {w : World} {t : Tag} {scene name value : String} {l : Location}

namespace World

/-- The location found under a name is the first of that name. -/
theorem location?_eq_some_iff : w.location? name = some l ↔ w.FirstNamed name l := by
  rw [location?, List.find?_eq_some_iff_append]
  simp only [FirstNamed, Bool.not_eq_true']
  constructor
  · rintro ⟨hname, before, after, hsplit, hbefore⟩
    exact ⟨before, after, hsplit, hname, hbefore⟩
  · rintro ⟨before, after, hsplit, hname, hbefore⟩
    exact ⟨hname, before, after, hsplit, hbefore⟩

/-- A location is found under a name when there is one. -/
theorem location?_isSome_iff :
    (w.location? name).isSome = true ↔ ∃ l ∈ w.locations, sameName l.name name = true := by
  rw [location?, List.find?_isSome]

/-- What is looked for in the hands is found when the player has it. -/
theorem hasValue_drag_iff : w.drag.hasValue value = true ↔ w.InHand value := by
  unfold drag drag? tags? InHand
  simp only [← location?_eq_some_iff]
  cases w.location? dragName <;> simp

/-- A holder is found when the identifier lies around. -/
theorem holder?_isSome_iff (scene value : String) :
    (w.holder? scene value).isSome = true ↔ w.LiesAround value := by
  rw [← not_iff_not, Option.not_isSome_iff_eq_none, holder?_eq_none_iff,
    List.eq_nil_iff_forall_not_mem]
  simp only [mem_holders, LiesAround, not_exists]

/-- No comparison is a lower and an upper bound at once. -/
theorem not_isLower_of_isGreater (h : t.isGreater = true) : t.isLower = false := by
  rw [Tag.isGreater, Bool.and_eq_true, beq_iff_eq] at h
  have hends : ¬ maxLevel = minLevel := by decide
  rw [Tag.isLower, h.2, beq_eq_false_iff_ne.mpr hends, Bool.and_false]

/-- A level passes when the comparison admits it. -/
theorem passes_iff (hform : t.isComparison = true) {test : Tag} (hmeter : test.hasMeter = true) :
    passes t test.meter.value = true ↔ t.Admits test.meter.value := by
  obtain ⟨hmin, hmax⟩ : minLevel < test.meter.value ∧ test.meter.value < maxLevel := by
    simpa [Tag.hasMeter, Meter.hasValue] using hmeter
  unfold passes
  constructor
  · intro h
    split at h
    · next hgreater =>
      exact .atLeast hgreater (by simpa [hmax] using h)
    · next hgreater =>
      split at h
      · next hlower => exact .atMost hlower (by simpa [hmin] using h)
      · next hlower =>
        have hrange : t.isRange = true := by
          simpa [Tag.isComparison, hgreater, hlower] using hform
        obtain ⟨hlow, hhigh⟩ : _ ∧ _ := by simpa using h
        exact .between hrange hlow hhigh
  · rintro (⟨hgreater, hlow⟩ | ⟨hlower, hhigh⟩ | ⟨-, hlow, hhigh⟩)
    · simp [hgreater, hmax, hlow]
    · have hgreater : t.isGreater = false := by
        by_contra hgreater
        rw [not_isLower_of_isGreater (eq_true_of_ne_false hgreater)] at hlower
        cases hlower
      simp [hgreater, hlower, hmin, hhigh]
    · split
      · simp [hmax, hlow]
      · split
        · simp [hmin, hhigh]
        · simp [hlow, hhigh]

/-- Something is compared with success when some level passes. -/
theorem compared_ne_nil_iff (hform : t.isComparison = true) :
    w.compared t ≠ [] ↔ w.SomeLevelPasses t := by
  simp only [compared, ne_eq, List.flatMap_eq_nil_iff, List.map_eq_nil_iff, List.filter_eq_nil_iff,
    not_forall, Bool.and_eq_true, not_not, SomeLevelPasses, exists_prop, List.isPrefixOf_iff_prefix]
  refine exists_congr fun l => and_congr_right fun _ => exists_congr fun test => ?_
  refine and_congr_right fun _ => ?_
  constructor
  · rintro ⟨⟨hpasses, hmeter⟩, hstarts⟩
    exact ⟨hmeter, hstarts, (passes_iff hform hmeter).mp hpasses⟩
  · rintro ⟨hmeter, hstarts, hadmits⟩
    exact ⟨⟨(passes_iff hform hmeter).mpr hadmits, hmeter⟩, hstarts⟩

/-- A comparison without a sign is met anyway, and one with a sign when some level passes, or none
where it forbids. -/
theorem checkComparison_isSome_iff (hform : t.isComparison = true) :
    (w.checkComparison t).isSome = true ↔
      t.mode = .plain ∨ t.Wants (w.SomeLevelPasses t) := by
  rw [← compared_ne_nil_iff hform, checkComparison, Tag.Wants]
  cases t.mode <;> cases w.compared t <;> simp

/-- A context tag is met when it lies around, or does not where it forbids. -/
theorem checkContext_isSome_iff :
    (w.checkContext scene t).isSome = true ↔ t.Wants (w.LiesAround t.value) := by
  rw [← holder?_isSome_iff scene, checkContext, Tag.Wants]
  cases t.mode <;> cases w.holder? scene t.value <;> simp

/-- A context tag is met when it suits the world around. -/
theorem checkAround_isSome_iff : (w.checkAround scene t).isSome = true ↔ w.Suits t := by
  unfold checkAround Suits
  split
  · next hform => exact checkComparison_isSome_iff hform
  · exact checkContext_isSome_iff

/-- A payload tag can be laid out when there is room for it. -/
theorem layOut_isSome_iff : (w.layOut scene t).isSome = true ↔ w.HasRoom scene t := by
  constructor
  · intro h
    obtain ⟨ops, hops⟩ := Option.isSome_iff_exists.mp h
    obtain ⟨hplain, hplaced, hfree, -⟩ := layOut_eq_some hops
    refine ⟨hplain, fun name hname => by simpa [hname] using hplaced, fun l hl hsame => ?_⟩
    by_contra hheld
    have hother := hfree l (mem_holders.mpr ⟨hl, eq_true_of_ne_false hheld⟩)
    rw [hsame] at hother
    cases hother
  · rintro ⟨hplain, hplaced, hfree⟩
    have hhands : t.location.any isDrag = false := by
      cases hname : t.location with
      | none => rfl
      | some name => exact hplaced name hname
    have hclear : (w.holders t.value).any (sameName ·.name (t.location.getD scene)) = false := by
      refine List.any_eq_false.mpr fun l hl hsame => ?_
      obtain ⟨hscene, hheld⟩ := mem_holders.mp hl
      rw [hfree l hscene hsame] at hheld
      cases hheld
    simp [layOut, hplain, hhands, hclear]

end World

/-- A cost tag is met when it is held, or is not where it forbids. -/
theorem checkHeld_isSome_iff {held : TagSet} {place : String} :
    (checkHeld held place t).isSome = true ↔ t.Wants (held.hasValue t.value = true) := by
  rw [checkHeld, Tag.Wants]
  cases t.mode <;> cases held.hasValue t.value <;> simp

/-- A gain is taken in hand when it can be. -/
theorem takeInHand_isSome_iff : (takeInHand w.drag t).isSome = true ↔ w.CanTake t := by
  rw [takeInHand, World.CanTake, ← World.hasValue_drag_iff]
  cases t.mode <;> cases w.drag.hasValue t.value <;> simp

namespace Rule

/-- A target leads on when the location it names is there. -/
theorem moveTo_isSome_iff {target : Tag} : (moveTo w target).isSome = true ↔
    ∀ name, target.location = some name → ∃ l ∈ w.locations, sameName l.name name = true := by
  unfold moveTo
  split
  · next hnone => simp [hnone]
  · next name hname => simp [hname, World.location?_isSome_iff]

end Rule

end Checks

/-! ### What acceptance answers -/

namespace Rule

variable {r : Rule} {scene : String} {w : World} {here : Location}

/-- The cost can be paid exactly when each of its tags suits what is looked through. -/
theorem paid_isSome_iff :
    (forAllTags (checkHeld (r.purse here w).1 (r.purse here w).2) r.cost).isSome = true ↔
      ∀ t ∈ r.cost.tags,
        t.Wants (if r.drag then w.InHand t.value else here.tags.hasValue t.value = true) := by
  rw [forAllTags_isSome_iff]
  refine forall₂_congr fun t _ => checkHeld_isSome_iff.trans ?_
  unfold purse
  split
  · rw [World.hasValue_drag_iff]
  · exact Iff.rfl

/-- A rule starts when its target is met, leads on and its cost is held. -/
theorem starts_iff :
    r.Starts scene w here ↔ w.location? scene = some here ∧
      here.tags.hasValue r.target.value = true ∧ r.target.mode ≠ .forbidden ∧
      (moveTo w r.target).isSome = true ∧
      (forAllTags (checkHeld (r.purse here w).1 (r.purse here w).2) r.cost).isSome = true := by
  rw [World.location?_eq_some_iff, moveTo_isSome_iff, paid_isSome_iff]
  constructor
  · rintro ⟨hscene, hmode, hmet, hleads, hpaid⟩
    exact ⟨hscene, hmet, hmode, hleads, hpaid⟩
  · rintro ⟨hscene, hmet, hmode, hleads, hpaid⟩
    exact ⟨hscene, hmode, hmet, hleads, hpaid⟩

/-- What comes before the gains succeeds exactly where the rule can start. -/
theorem enterScene_isSome_iff :
    (r.enterScene scene w).isSome = true ↔ ∃ here, r.Starts scene w here := by
  simp only [starts_iff, Option.isSome_iff_exists, Prod.exists, enterScene_eq_some_iff]
  constructor
  · rintro ⟨_, _, here, hscene, hmet, hmode, move, hmove, paid, hpaid, -⟩
    exact ⟨here, hscene, hmet, hmode, ⟨move, hmove⟩, ⟨paid, hpaid⟩⟩
  · rintro ⟨here, hscene, hmet, hmode, ⟨move, hmove⟩, ⟨paid, hpaid⟩⟩
    exact ⟨_, _, here, hscene, hmet, hmode, move, hmove, paid, hpaid, rfl⟩

/-- What a rule asks for is what its phases ask for. -/
theorem applies_iff :
    r.Applies scene w here ↔ r.Starts scene w here ∧
      (forAllTags (takeInHand w.drag) r.gain).isSome = true ∧
      (forAllTags (w.checkAround here.name) r.context).isSome = true ∧
      (forAllTags (w.layOut here.name) r.payload).isSome = true := by
  simp only [forAllTags_isSome_iff, takeInHand_isSome_iff, World.checkAround_isSome_iff,
    World.layOut_isSome_iff]
  constructor
  · rintro ⟨hstarts, hgain, hcontext, hpayload⟩
    exact ⟨hstarts, hgain, hcontext, hpayload⟩
  · rintro ⟨hstarts, hgain, hcontext, hpayload⟩
    exact ⟨hstarts, hgain, hcontext, hpayload⟩

/-- A rule is accepted exactly where all it asks for is given. -/
theorem accepts_iff :
    (∃ a, r.accept scene w = .ok (some a)) ↔ ∃ here, r.Applies scene w here := by
  simp only [accept_eq_ok_some_iff, applies_iff, starts_iff, Option.isSome_iff_exists]
  constructor
  · rintro ⟨_, p, -⟩
    exact ⟨p.here, ⟨p.here_eq, p.target_held, p.target_mode, ⟨_, p.move_eq⟩, ⟨_, p.paid_eq⟩⟩,
      ⟨_, p.gained_eq⟩, ⟨_, p.around_eq⟩, ⟨_, p.laid_eq⟩⟩
  · rintro ⟨here, ⟨hscene, hmet, hmode, ⟨move, hmove⟩, ⟨paid, hpaid⟩⟩, ⟨gained, hgained⟩,
      ⟨around, haround⟩, ⟨laid, hlaid⟩⟩
    exact ⟨_, ⟨here, move, paid, gained, around, laid, hscene, hmet, hmode, hmove, hpaid, hgained,
      haround, hlaid⟩, rfl⟩

/-- The first gain that is refused, by its place among the gains. -/
theorem refusedGain?_eq_some_iff {t : Tag} :
    (r.gain.tags.find? fun t => (takeInHand w.drag t).isNone) = some t ↔
      ¬ w.CanTake t ∧
        ∃ before after, r.gain.tags = before ++ t :: after ∧ ∀ g ∈ before, w.CanTake g := by
  simp only [List.find?_eq_some_iff_append, ← takeInHand_isSome_iff, Bool.not_eq_true',
    Option.isNone_eq_false_iff, Bool.not_eq_true, Option.isSome_eq_false_iff]

/-- A rule is an error exactly where it can start and the first gain that is refused is paid. -/
theorem fails_iff {e : ScriptError} :
    r.accept scene w = .error e ↔ (∃ here, r.Starts scene w here) ∧
      ∃ t, r.PaysFirst w t ∧ e = { cause := .gainIsPaid t.raw r.target.raw, phase := .rule } := by
  rw [accept_eq_error_iff, enterScene_isSome_iff, takeGains_eq_error_iff]
  refine and_congr_right fun _ => exists_congr fun t => ?_
  rw [refusedGain?_eq_some_iff, TagSet.hasValue_eq_true_iff]
  constructor
  · rintro ⟨⟨hrefused, hfirst⟩, hpaid, he⟩
    exact ⟨⟨hfirst, hrefused, hpaid⟩, he⟩
  · rintro ⟨⟨hfirst, hrefused, hpaid⟩, he⟩
    exact ⟨⟨hrefused, hfirst⟩, hpaid, he⟩

end Rule

/-- **Acceptance decides what a rule asks.** A rule is accepted in a scene of a world exactly when
the world gives all it asks for: the scene, its target, the cost, room in hand for the gains, the
context around and room for the payload. It fails exactly when it could start, and the first of its
gains that cannot be taken has the identifier of a cost tag; the error names that gain and the
target. -/
theorem acceptance_decides (r : Rule) (scene : String) (w : World) :
    ((∃ a, r.accept scene w = .ok (some a)) ↔ ∃ here, r.Applies scene w here) ∧
      ∀ e, r.accept scene w = .error e ↔ (∃ here, r.Starts scene w here) ∧
        ∃ t, r.PaysFirst w t ∧ e = { cause := .gainIsPaid t.raw r.target.raw, phase := .rule } :=
  ⟨Rule.accepts_iff, fun _ => Rule.fails_iff⟩

end StoryTape
