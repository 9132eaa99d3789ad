import StoryTape.Proofs.NetEffect
import StoryTape.Proofs.Verdicts

/-!
# Exchanges

An exchange pays one tag in hand and gains another. It is refused while the tag is not in hand.
Otherwise it is accepted when the gain is new, and playing it keeps every scene as it is and puts
the gain in the place of the cost. When the cost is all that the player carries, `DRAG` vanishes on
the way and comes back as the last location.
-/

namespace StoryTape

open Text

/-! ### Changing the first location of a name -/

namespace World

section Front

variable {name : String} {front : List Location}
  (hfront : ∀ l ∈ front, sameName l.name name = false)

include hfront

/-- A tag is taken out behind the locations of other names. -/
theorem takeTag_append (raw : String) (ls : List Location) :
    takeTag raw name (front ++ ls) = (takeTag raw name ls).map (front ++ ·) := by
  induction front with
  | nil => simp
  | cons l front ih =>
    obtain ⟨hl, hrest⟩ := List.forall_mem_cons.mp hfront
    rw [List.cons_append, takeTag, hl, ih hrest, Option.map_map]
    rfl

/-- A tag is put in behind the locations of other names. -/
theorem putTag_append (t : Tag) (ls : List Location) :
    putTag t name (front ++ ls) = front ++ putTag t name ls := by
  induction front with
  | nil => rfl
  | cons l front ih =>
    obtain ⟨hl, hrest⟩ := List.forall_mem_cons.mp hfront
    rw [List.cons_append, putTag, hl, ih hrest]
    rfl

/-- A location that others precede is found if none of them has the name. -/
theorem location?_append (ls : List Location) :
    location? ⟨front ++ ls⟩ name = location? ⟨ls⟩ name := by
  have hnone : front.find? (fun l => sameName l.name name) = none :=
    List.find?_eq_none.mpr fun l hl => by simp [hfront l hl]
  rw [location?, List.find?_append, hnone, Option.none_or]
  rfl

end Front

/-- A location split from the others, of which none has its name. -/
theorem Distinct.exists_split {w : World} (hw : w.Distinct) {name : String} {tags : TagSet}
    (h : w.tags? name = some tags) :
    ∃ before l after, w.locations = before ++ l :: after ∧ sameName l.name name = true ∧
      l.tags = tags ∧ (∀ l' ∈ before, sameName l'.name name = false) ∧
      ∀ l' ∈ after, sameName l'.name name = false := by
  obtain ⟨l, hl, rfl⟩ := Option.map_eq_some_iff.mp h
  obtain ⟨before, after, hsplit, hname, hbefore⟩ := location?_eq_some_iff.mp hl
  refine ⟨before, l, after, hsplit, hname, rfl, hbefore, fun l' hl' => ?_⟩
  rw [Distinct, hsplit, DistinctNames, List.pairwise_append, List.pairwise_cons] at hw
  have hother := hw.2.1.1 l' hl'
  by_contra hsame
  rw [sameName_trans hname (sameName_symm (eq_true_of_ne_false hsame))] at hother
  cases hother

/-- Taking one tag out of what the player carries and putting another in replaces it there. -/
theorem Distinct.drag_exchanged {w : World} (hw : w.Distinct) {drag : TagSet}
    (hdrag : w.drag? = some drag) (old new : Tag) :
    ∃ ls, takeTag old.raw dragName w.locations = some ls ∧
      scenes ⟨putTag new dragName ls⟩ = w.scenes ∧
      drag? ⟨putTag new dragName ls⟩ = some (drag.replace old new) := by
  obtain ⟨before, l, after, hsplit, hname, rfl, hbefore, hafter⟩ := hw.exists_split hdrag
  have herase : l.tags.eraseRaw old.raw = l.tags.filter (· != old) := by
    refine TagSet.ext_tags (List.filter_congr fun t _ => ?_)
    rw [Bool.eq_iff_iff, bne_iff_ne, bne_iff_ne, ne_eq, ne_eq, not_iff_not]
    exact ⟨Tag.ext_raw, congrArg Tag.raw⟩
  have htaken : takeTag old.raw dragName (l :: after) =
      some (if (l.tags.filter (· != old)).isEmpty then after
        else ⟨l.name, l.tags.filter (· != old)⟩ :: after) := by
    simp [takeTag, hname, herase]
  refine ⟨_, by rw [hsplit, takeTag_append hbefore, htaken, Option.map_some], ?_⟩
  rw [putTag_append hbefore]
  split
  · next hempty =>
    -- The hands vanish with the tag that is paid, and come back behind all other locations.
    have hnew : putTag new dragName after = after ++ [⟨dragName, .singleton new⟩] := by
      simpa [putTag] using putTag_append hafter new []
    have hreplaced : l.tags.replace old new = .singleton new := by
      have hnil : l.tags.filter (· != old) = .empty := TagSet.ext_tags (List.isEmpty_iff.mp hempty)
      rw [TagSet.replace, hnil]
      rfl
    rw [hnew, hreplaced]
    constructor
    · simp [scenes, hsplit, isDrag, hname]
    · rw [drag?, tags?, location?_append hbefore, location?_append hafter]
      simp [location?]
  · have hput : putTag new dragName (⟨l.name, l.tags.filter (· != old)⟩ :: after) =
        ⟨l.name, l.tags.replace old new⟩ :: after := by
      rw [putTag, if_pos hname]
      rfl
    rw [hput]
    constructor
    · simp [scenes, hsplit, isDrag, hname]
    · rw [drag?, tags?, location?_append hbefore]
      simp [location?, hname]

end World

/-- A check of a set of one tag is the check of that tag. -/
theorem forAllTags_singleton (f : Tag → Option (List Operation)) (t : Tag) :
    forAllTags f (.singleton t) = f t := by
  cases h : f t <;> simp [forAllTags, TagSet.singleton, h]

/-! ### The rule -/

namespace Rule

/-- The rule that pays one tag in hand and gains another. -/
def exchange (target cost gain : Tag) (text : Option String) : Rule :=
  { target, cost := .singleton cost, gain := .singleton gain, text }

/-- What playing an exchange does. -/
def exchangeOperations (place : String) (target cost gain : Tag) : List Operation :=
  [.assertTagIn target.value place, .assertTagIn cost.value dragName,
    .removeTag cost.value dragName, .assertNoTag gain.value dragName,
    .appendTag gain.value dragName]

variable {w : World} {scene : String} {target cost gain : Tag} {text : Option String}

/-- What is not in hand cannot be paid. -/
theorem exchange_refused (hplain : cost.mode = .plain) (hnot : w.drag.hasValue cost.value = false) :
    (exchange target cost gain text).accept scene w = .ok none := by
  have hpaid : forAllTags (checkHeld w.drag dragName) (.singleton cost) = none := by
    rw [forAllTags_singleton, checkHeld, hplain, hnot]
  have hstops : (exchange target cost gain text).enterScene scene w = none := by
    by_contra henter
    obtain ⟨⟨name, opening⟩, hopening⟩ := Option.ne_none_iff_exists'.mp henter
    obtain ⟨here, -, -, -, -, -, paid, hheld, -⟩ := enterScene_eq_some_iff.mp hopening
    cases hpaid.symm.trans hheld
  rw [accept, hstops]

/-- A tag in hand is exchanged for one that is not, in a scene that holds the target. -/
theorem exchange_accepted (text : Option String) {here : Location}
    (hhere : w.location? scene = some here) (hmet : here.tags.hasValue target.value = true)
    (hstays : target.mode = .required) (hleads : target.location = none) (hcost : cost.mode = .plain)
    (hheld : w.drag.hasValue cost.value = true) (hgain : gain.mode = .plain)
    (hnew : w.drag.hasValue gain.value = false) :
    (exchange target cost gain text).accept scene w =
      .ok (some ⟨text, exchangeOperations here.name target cost gain⟩) := by
  have hpaid : forAllTags (checkHeld w.drag dragName) (.singleton cost) =
      some [.assertTagIn cost.value dragName, .removeTag cost.value dragName] := by
    rw [forAllTags_singleton, checkHeld, hcost, hheld]
  have hgained : forAllTags (takeInHand w.drag) (.singleton gain) =
      some [.assertNoTag gain.value dragName, .appendTag gain.value dragName] := by
    rw [forAllTags_singleton, takeInHand, hgain, hnew]
    rfl
  have hmove : moveTo w target = some [] := by
    rw [moveTo, hleads]
  let phases : (exchange target cost gain text).Phases scene w := {
    here
    move := []
    paid := [.assertTagIn cost.value dragName, .removeTag cost.value dragName]
    gained := [.assertNoTag gain.value dragName, .appendTag gain.value dragName]
    around := []
    laid := []
    here_eq := hhere
    target_held := hmet
    target_mode := by simp [exchange, hstays]
    move_eq := hmove
    paid_eq := hpaid
    gained_eq := hgained
    around_eq := rfl
    laid_eq := rfl }
  refine accept_eq_ok_some_iff.mpr ⟨phases, ?_⟩
  simp [phases, Phases.operations, exchange, exchangeOperations, meet, hstays]

/-- Playing an exchange puts the gain in the place of the cost and keeps every scene. -/
theorem apply_exchangeOperations (hw : w.Distinct) {drag : TagSet} (hdrag : w.drag? = some drag)
    (hcost : cost.raw = cost.value) (hgain : Tag.parse gain.value = .ok gain) (place : String)
    (target : Tag) :
    ∃ w', w.apply (exchangeOperations place target cost gain) = .ok w' ∧ w'.Distinct ∧
      w'.scenes = w.scenes ∧ w'.drag? = some (drag.replace cost gain) := by
  obtain ⟨ls, htake, hscenes, hreplaced⟩ := hw.drag_exchanged hdrag cost gain
  have hrun : w.applyInScene "" (exchangeOperations place target cost gain) =
      .ok (⟨World.putTag gain dragName ls⟩, "") := by
    rw [hcost] at htake
    simp [exchangeOperations, World.applyInScene, World.applyOne, htake, hgain, Checked.inPhase,
      Except.mapError, Bind.bind, Except.bind, Pure.pure, Except.pure]
  refine ⟨⟨World.putTag gain dragName ls⟩, ?_, hw.applyInScene hrun, hscenes, hreplaced⟩
  rw [World.apply, hrun]
  rfl

end Rule

end StoryTape
