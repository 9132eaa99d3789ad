import StoryTape.Proofs.Acceptance

/-!
# What acceptance records is true

The operations of an accepted rule or choice record what was found on the way. This file proves
that the records are true of the world they were made in, that nothing is taken out which was not
found just before, and that nothing is put where its identifier lies already. Operations are
collected while checks are still running, so each is traced to the check that let it through.
-/

namespace StoryTape

open Text

/-- The records among the operations are true of the world, and each removal follows the record
of what it removes. -/
structure Truthful (w : World) (ops : List Operation) : Prop where
  /-- What is recorded as found lies there. -/
  found : ∀ value place, .assertTagIn value place ∈ ops → w.HoldsValue value place
  /-- What is recorded as missing does not lie there. -/
  missing : ∀ value place, .assertNoTag value place ∈ ops → ¬ w.HoldsValue value place
  /-- What is removed was found just before. -/
  removed : ∀ before after value place, ops = before ++ .removeTag value place :: after →
    ∃ earlier, before = earlier ++ [.assertTagIn value place]

/-- Nothing is put where its identifier lies already. -/
def Fresh (w : World) (ops : List Operation) : Prop :=
  ∀ value place, .appendTag value place ∈ ops → ¬ w.HoldsValue value place

/-- No operations are truthful. -/
theorem Truthful.nil {w : World} : Truthful w [] where
  found := nofun
  missing := nofun
  removed before after value place h := by simp at h

/-- Truthful operations one after the other are truthful. -/
theorem Truthful.append {w : World} {a b : List Operation} (ha : Truthful w a)
    (hb : Truthful w b) : Truthful w (a ++ b) where
  found value place h :=
    (List.mem_append.mp h).elim (ha.found value place) (hb.found value place)
  missing value place h :=
    (List.mem_append.mp h).elim (ha.missing value place) (hb.missing value place)
  removed before after value place h := by
    rcases List.append_eq_append_iff.mp h with ⟨middle, rfl, hb'⟩ | ⟨middle, ha', hb'⟩
    · obtain ⟨earlier, rfl⟩ := hb.removed middle after value place hb'
      exact ⟨a ++ earlier, by rw [List.append_assoc]⟩
    · cases middle with
      | nil =>
        obtain ⟨earlier, hearlier⟩ := hb.removed [] after value place hb'.symm
        simp at hearlier
      | cons op middle =>
        simp only [List.cons_append, List.cons.injEq] at hb'
        obtain ⟨rfl, -⟩ := hb'
        exact ha.removed before middle value place ha'

/-- Records that take nothing out need only be true one by one. -/
theorem Truthful.of_no_removal {w : World} {ops : List Operation}
    (hfound : ∀ value place, .assertTagIn value place ∈ ops → w.HoldsValue value place)
    (hmissing : ∀ value place, .assertNoTag value place ∈ ops → ¬ w.HoldsValue value place)
    (hkeep : ∀ value place, .removeTag value place ∉ ops) : Truthful w ops where
  found := hfound
  missing := hmissing
  removed before after value place h := by
    subst h
    exact absurd (by simp) (hkeep value place)

/-- A tag that is found may be taken out. -/
theorem Truthful.of_found {w : World} {value place : String} (h : w.HoldsValue value place)
    {ops : List Operation} (hops : ops = [.assertTagIn value place, .removeTag value place] ∨
      ops = [.assertTagIn value place]) : Truthful w ops := by
  rcases hops with rfl | rfl
  · refine ⟨?_, ?_, ?_⟩
    · intro value' place' hmem
      simp only [List.mem_cons, Operation.assertTagIn.injEq, reduceCtorEq, List.not_mem_nil,
        or_false] at hmem
      rw [hmem.1, hmem.2]
      exact h
    · intro value' place' hmem
      simp at hmem
    · intro before after value' place' heq
      match before, heq with
      | [.assertTagIn _ _], heq =>
        simp only [List.cons_append, List.nil_append, List.cons.injEq, Operation.assertTagIn.injEq,
          Operation.removeTag.injEq] at heq
        obtain ⟨⟨rfl, rfl⟩, ⟨rfl, rfl⟩, -⟩ := heq
        exact ⟨[], rfl⟩
      | _ :: _ :: _, heq => simp at heq
  · refine .of_no_removal (fun value' place' hmem => ?_) (by simp) (by simp)
    obtain ⟨rfl, rfl⟩ := Operation.assertTagIn.inj (List.mem_singleton.mp hmem)
    exact h

/-- What does not lie somewhere may be recorded as missing. -/
theorem Truthful.of_missing {w : World} {value place : String} (h : ¬ w.HoldsValue value place) :
    Truthful w [.assertNoTag value place] := by
  refine .of_no_removal (by simp) (fun value' place' hmem => ?_) (by simp)
  obtain ⟨rfl, rfl⟩ := Operation.assertNoTag.inj (List.mem_singleton.mp hmem)
  exact h

/-- Putting a tag down records nothing. -/
theorem Truthful.of_put {w : World} {value place : String} :
    Truthful w [.appendTag value place] :=
  .of_no_removal (by simp) (by simp) (by simp)

/-- Fresh operations one after the other are fresh. -/
theorem Fresh.append {w : World} {a b : List Operation} (ha : Fresh w a) (hb : Fresh w b) :
    Fresh w (a ++ b) :=
  fun value place h => (List.mem_append.mp h).elim (ha value place) (hb value place)

/-- Operations that put nothing anywhere are fresh. -/
theorem Fresh.of_no_append {w : World} {ops : List Operation}
    (h : ∀ value place, .appendTag value place ∉ ops) : Fresh w ops :=
  fun value place hmem => absurd hmem (h value place)

/-- A tag may be put where its identifier does not lie. -/
theorem Fresh.of_put {w : World} {value place : String} (h : ¬ w.HoldsValue value place) :
    Fresh w [.appendTag value place] := by
  intro value' place' hmem
  obtain ⟨rfl, rfl⟩ := Operation.appendTag.inj (List.mem_singleton.mp hmem)
  exact h

/-! ### The checks -/

section Checks

variable {w : World} {t : Tag} {ops : List Operation}

/-- A look among held tags is truthful when these are the tags of the place it names. -/
theorem checkHeld_truthful {held : TagSet} {place : String}
    (hheld : ∀ value, held.hasValue value = true ↔ w.HoldsValue value place)
    (h : checkHeld held place t = some ops) : Truthful w ops ∧ Fresh w ops := by
  rcases checkHeld_cases h with ⟨hvalue, hops⟩ | ⟨hvalue, rfl⟩
  · refine ⟨.of_found ((hheld t.value).mp hvalue) hops, .of_no_append ?_⟩
    rcases hops with rfl | rfl <;> simp
  · have hnot : ¬ w.HoldsValue t.value place := fun hholds => by
      rw [(hheld t.value).mpr hholds] at hvalue
      cases hvalue
    exact ⟨.of_missing hnot, .of_no_append (by simp)⟩

/-- What is taken in hand was not there. -/
theorem takeInHand_truthful (hw : w.Distinct) (h : takeInHand w.drag t = some ops) :
    Truthful w ops ∧ Fresh w ops := by
  obtain ⟨hfree, -, rfl⟩ := takeInHand_eq_some h
  have hnot : ¬ w.HoldsValue t.value dragName := fun hholds => by
    rw [hw.drag_hasValue_iff.mpr hholds] at hfree
    cases hfree
  have hrecord : Fresh w [.assertNoTag t.value dragName] := .of_no_append (by simp)
  exact ⟨(Truthful.of_missing hnot).append .of_put, hrecord.append (.of_put hnot)⟩

namespace World

/-- A scene that holds an identifier is a place that holds it. -/
theorem holdsValue_of_mem_holders {value : String} {l : Location} (h : l ∈ w.holders value) :
    w.HoldsValue value l.name := by
  obtain ⟨hscene, hvalue⟩ := mem_holders.mp h
  exact ⟨l, (mem_scenes.mp hscene).1, sameName_refl _, hvalue⟩

/-- A scene without an identifier is a place without it. -/
theorem not_holdsValue_of_mem_scenes (hw : w.Distinct) {value place : String} {l : Location}
    (hl : l ∈ w.scenes) (hplace : sameName l.name place = true)
    (hvalue : l.tags.hasValue value = false) : ¬ w.HoldsValue value place := by
  rw [hw.holdsValue_iff (hw.location?_eq_some (mem_scenes.mp hl).1 hplace), hvalue]
  decide

/-- Where no scene of a name holds an identifier and the name is not that of the player's hands,
it does not lie. -/
theorem not_holdsValue_of_holders {value place : String} (hplace : isDrag place = false)
    (h : ∀ l ∈ w.holders value, sameName l.name place = false) : ¬ w.HoldsValue value place := by
  rintro ⟨l, hl, hname, hvalue⟩
  have hscene : isDrag l.name = false := (sameName_congr hname dragName).trans hplace
  rw [h l (mem_holders.mpr ⟨mem_scenes.mpr ⟨hl, hscene⟩, hvalue⟩)] at hname
  cases hname

/-- The record that no scene holds an identifier is true when none does. -/
theorem assertNowhere_truthful (hw : w.Distinct) {value : String} (h : w.holders value = []) :
    Truthful w (w.assertNowhere value) ∧ Fresh w (w.assertNowhere value) := by
  refine ⟨.of_no_removal ?_ ?_ ?_, .of_no_append ?_⟩ <;> intro value' place hmem <;>
    obtain ⟨l, hl, heq⟩ := List.mem_map.mp hmem <;> cases heq
  refine not_holdsValue_of_mem_scenes hw hl (sameName_refl _) ?_
  cases hvalue : l.tags.hasValue value with
  | false => rfl
  | true =>
    have hholder : l ∈ w.holders value := mem_holders.mpr ⟨hl, hvalue⟩
    rw [h] at hholder
    cases hholder

/-- A found context tag is found in a scene that holds it. -/
theorem found_truthful {value : String} {l : Location} (hl : l ∈ w.holders value)
    (hops : ops = [.assertTagIn value l.name, .removeTag value l.name] ∨
      ops = [.assertTagIn value l.name]) : Truthful w ops ∧ Fresh w ops := by
  refine ⟨.of_found (holdsValue_of_mem_holders hl) hops, .of_no_append ?_⟩
  rcases hops with rfl | rfl <;> simp

/-- What the check of a context tag records is true, and it puts nothing down. -/
theorem checkAround_truthful (hw : w.Distinct) {scene : String}
    (h : w.checkAround scene t = some ops) : Truthful w ops ∧ Fresh w ops := by
  unfold checkAround at h
  split at h
  · rcases checkComparison_cases h with rfl | rfl
    · exact ⟨.nil, .of_no_append (by simp)⟩
    · refine ⟨.of_no_removal ?_ ?_ ?_, .of_no_append ?_⟩ <;> intro value place hmem <;>
        obtain ⟨⟨value', place'⟩, hpair, heq⟩ := List.mem_map.mp hmem <;> cases heq
      obtain ⟨l, hl, rfl, hvalue⟩ := exists_of_mem_compared hpair
      exact holdsValue_of_mem_holders (mem_holders.mpr ⟨hl, hvalue⟩)
  · rcases checkContext_cases h with ⟨l, hl, hops⟩ | ⟨hnone, rfl⟩
    · exact found_truthful hl hops
    · exact assertNowhere_truthful hw hnone

/-- What the check of a tag that is asked for once records is true, and it puts nothing down. -/
theorem checkOnce_truthful (hw : w.Distinct) (h : w.checkOnce t = some ops) :
    Truthful w ops ∧ Fresh w ops := by
  rcases checkOnce_cases h with ⟨l, hl, hops⟩ | ⟨hnone, rfl⟩
  · exact found_truthful hl hops
  · exact assertNowhere_truthful hw hnone

/-- Where a tag is laid out is not in the player's hands, unless the scene is. -/
theorem place_not_drag {scene : String} (hlocation : t.location.any isDrag = false)
    (hscene : isDrag scene = false) : isDrag (t.location.getD scene) = false := by
  cases hl : t.location with
  | none => exact hscene
  | some name => rw [hl] at hlocation; exact hlocation

/-- What laying a tag out records is true, and outside the hands it is fresh. -/
theorem layOut_truthful (hw : w.Distinct) {scene : String} (h : w.layOut scene t = some ops) :
    Truthful w ops ∧ (isDrag scene = false → Fresh w ops) := by
  obtain ⟨-, hlocation, hfree, rfl⟩ := layOut_eq_some h
  constructor
  · refine Truthful.append (.of_no_removal ?_ ?_ ?_) .of_put <;> intro value place hmem <;>
      obtain ⟨l, hl, heq⟩ := List.mem_map.mp hmem <;> cases heq
    obtain ⟨hscene, hclear⟩ := List.mem_filter.mp hl
    exact not_holdsValue_of_mem_scenes hw hscene (sameName_refl _) (by simpa using hclear)
  · intro hscene
    have hplace : isDrag (t.location.getD scene) = false := place_not_drag hlocation hscene
    exact (Fresh.of_no_append (by simp)).append
      (.of_put (not_holdsValue_of_holders hplace hfree))

/-- What laying a new tag out records is true, and outside the hands it is fresh. -/
theorem layOutNew_truthful (hw : w.Distinct) {scene : String}
    (h : w.layOutNew scene t = some ops) :
    Truthful w ops ∧ (isDrag scene = false → Fresh w ops) := by
  obtain ⟨-, hlocation, hnone, rfl⟩ := layOutNew_eq_some h
  obtain ⟨htruthful, hfresh⟩ := assertNowhere_truthful hw hnone
  refine ⟨htruthful.append .of_put, fun hscene => hfresh.append (.of_put ?_)⟩
  exact not_holdsValue_of_holders (place_not_drag hlocation hscene) (by simp [hnone])

end World

end Checks

/-! ### Rules and choices -/

/-- The player's hands, or the scene the player stands in, hold what the place they are named by
holds. -/
theorem Rule.purse_hasValue_iff {r : Rule} {scene : String} {w : World} {here : Location}
    (hw : w.Distinct) (hhere : w.location? scene = some here) (value : String) :
    (r.purse here w).1.hasValue value = true ↔ w.HoldsValue value (r.purse here w).2 := by
  unfold purse
  split
  · exact hw.drag_hasValue_iff
  · have hself := hw.location?_eq_some (World.mem_of_location? hhere).1 (sameName_refl here.name)
    exact (hw.holdsValue_iff hself).symm

/-- The record of the target and the change of scene are truthful. -/
theorem Rule.Phases.opening_truthful {r : Rule} {scene : String} {w : World}
    (p : r.Phases scene w) :
    Truthful w (p.move ++ meet r.target p.here.name) ∧
      Fresh w (p.move ++ meet r.target p.here.name) := by
  have hholds : w.HoldsValue r.target.value p.here.name :=
    ⟨p.here, (World.mem_of_location? p.here_eq).1, sameName_refl _, p.target_held⟩
  have hmove : Truthful w p.move ∧ Fresh w p.move := by
    rcases World.moveTo_eq_some p.move_eq with ⟨-, hmove⟩ | ⟨name, l, -, -, hmove⟩ <;> rw [hmove]
    · exact ⟨.nil, .of_no_append (by simp)⟩
    · exact ⟨.of_no_removal (by simp) (by simp) (by simp), .of_no_append (by simp)⟩
  have hmeet : meet r.target p.here.name =
        [.assertTagIn r.target.value p.here.name, .removeTag r.target.value p.here.name] ∨
      meet r.target p.here.name = [.assertTagIn r.target.value p.here.name] := by
    unfold meet
    split
    · exact .inl rfl
    · exact .inr rfl
  refine ⟨hmove.1.append (.of_found hholds hmeet), hmove.2.append (.of_no_append ?_)⟩
  rcases hmeet with h | h <;> rw [h] <;> simp

/-- The operations of a set are truthful, and fresh under a condition, when those of each tag
are. -/
theorem truthful_of_forAllTags_of {w : World} {f : Tag → Option (List Operation)} {s : TagSet}
    {ops : List Operation} {P : Prop} (h : forAllTags f s = some ops)
    (heach : ∀ t a, f t = some a → Truthful w a ∧ (P → Fresh w a)) :
    Truthful w ops ∧ (P → Fresh w ops) :=
  forAllTags_induction h ⟨.nil, fun _ => nofun⟩
    (fun _ _ ha hb => ⟨ha.1.append hb.1, fun hp => (ha.2 hp).append (hb.2 hp)⟩) (fun t _ => heach t)

/-- A check of a set is truthful and fresh if that of every tag is. -/
theorem truthful_of_forAllTags {w : World} {f : Tag → Option (List Operation)} {s : TagSet}
    {ops : List Operation} (h : forAllTags f s = some ops)
    (heach : ∀ t a, f t = some a → Truthful w a ∧ Fresh w a) : Truthful w ops ∧ Fresh w ops := by
  have hall := truthful_of_forAllTags_of (P := True) h
    fun t a ha => (heach t a ha).imp_right fun hfresh _ => hfresh
  exact ⟨hall.1, hall.2 trivial⟩

/-- The phases of a rule record what is true, and outside the hands they are fresh. -/
theorem Rule.Phases.truthful {r : Rule} {scene : String} {w : World} (hw : w.Distinct)
    (p : r.Phases scene w) :
    Truthful w p.operations ∧ (isDrag scene = false → Fresh w p.operations) := by
  obtain ⟨hopening, hopening'⟩ := p.opening_truthful
  obtain ⟨hpaid, hpaid'⟩ := truthful_of_forAllTags p.paid_eq
    fun _ _ => checkHeld_truthful (r.purse_hasValue_iff hw p.here_eq)
  obtain ⟨hgained, hgained'⟩ := truthful_of_forAllTags p.gained_eq fun _ _ => takeInHand_truthful hw
  obtain ⟨haround, haround'⟩ := truthful_of_forAllTags p.around_eq
    fun _ _ => World.checkAround_truthful hw
  obtain ⟨hlaid, hlaid'⟩ := truthful_of_forAllTags_of p.laid_eq
    fun _ _ => World.layOut_truthful hw
  refine ⟨(((hopening.append hpaid).append hgained).append haround).append hlaid, fun hscene => ?_⟩
  have hhere : isDrag p.here.name = false :=
    (sameName_congr (World.mem_of_location? p.here_eq).2 dragName).trans hscene
  exact (((hopening'.append hpaid').append hgained').append haround').append (hlaid' hhere)

/-- The phases of a choice record what is true, and outside the hands they are fresh. -/
theorem Choice.Phases.truthful {c : Choice} {scene : String} {w : World} (hw : w.Distinct)
    (p : c.Phases scene w) :
    Truthful w p.operations ∧ (isDrag scene = false → Fresh w p.operations) := by
  obtain ⟨hpaid, hpaid'⟩ := truthful_of_forAllTags p.paid_eq
    fun _ _ => checkHeld_truthful fun _ => hw.drag_hasValue_iff
  obtain ⟨hgained, hgained'⟩ := truthful_of_forAllTags p.gained_eq fun _ _ => takeInHand_truthful hw
  obtain ⟨haround, haround'⟩ := truthful_of_forAllTags p.around_eq
    fun _ _ => World.checkOnce_truthful hw
  obtain ⟨hlaid, hlaid'⟩ := truthful_of_forAllTags_of p.laid_eq
    fun _ _ => World.layOutNew_truthful hw
  exact ⟨((hpaid.append hgained).append haround).append hlaid,
    fun hscene => ((hpaid'.append hgained').append haround').append (hlaid' hscene)⟩

/-- **Acceptance never lies about the world.** In the operations of an accepted rule or choice,
what is recorded as found lies in the place named, what is recorded as missing does not, and each
removal stands right behind the record of what it removes. Outside the player's hands nothing is
put where its identifier lies already. -/
theorem accepted_operations_truthful {w : World} (hw : w.Distinct) (scene : String) :
    (∀ (r : Rule) (a : Accepted), r.accept scene w = .ok (some a) →
      Truthful w a.operations ∧ (isDrag scene = false → Fresh w a.operations)) ∧
    (∀ (c : Choice) (step : ChoiceStep), c.accept scene w = some step →
      Truthful w step.operations ∧ (isDrag scene = false → Fresh w step.operations)) := by
  constructor
  · intro r a h
    obtain ⟨p, rfl⟩ := Rule.accept_eq_ok_some_iff.mp h
    exact p.truthful hw
  · intro c step h
    obtain ⟨p, rfl⟩ := Choice.accept_eq_some_iff.mp h
    exact p.truthful hw

/-- At the inn, both the deal and the riddle keep truthful records. -/
theorem inn_operations_truthful :
    Inn.world.Distinct ∧
      Inn.deal.accept "home" Inn.world = .ok (some ⟨none, Inn.dealOperations⟩) ∧
      Inn.riddle.accept "home" Inn.world = some ⟨"RIDDLE-1", Inn.riddleOperations⟩ ∧
      Truthful Inn.world Inn.dealOperations ∧ Fresh Inn.world Inn.dealOperations ∧
      Truthful Inn.world Inn.riddleOperations ∧ Fresh Inn.world Inn.riddleOperations := by
  have hdeal := (accepted_operations_truthful Inn.distinct "home").1 _ _ Inn.deal_accepted
  have hriddle := (accepted_operations_truthful Inn.distinct "home").2 _ _ Inn.riddle_accepted
  have hscene : isDrag "home" = false := by decide
  exact ⟨Inn.distinct, Inn.deal_accepted, Inn.riddle_accepted, hdeal.1, hdeal.2 hscene, hriddle.1,
    hriddle.2 hscene⟩

end StoryTape
