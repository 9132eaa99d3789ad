import StoryTape.Proofs.Acceptance
import StoryTape.Proofs.NetEffect

/-!
# What a turn does

The operations of an accepted rule or choice take out and put down in phases. Costs and targets
are taken before anything is put down, gains are put into the player's hands while context tags
are taken from the scenes alone, and payloads come last. So nothing put down is taken out again,
and a turn has the net effect that its operations show.
-/

namespace StoryTape

open Text

/-- The operations put no tag anywhere. -/
def PutsNothing (ops : List Operation) : Prop := ∀ raw place, .appendTag raw place ∉ ops

/-- The operations take no tag out. -/
def TakesNothing (ops : List Operation) : Prop := ∀ raw place, .removeTag raw place ∉ ops

/-- The operations change no scene. -/
def Stays (ops : List Operation) : Prop := ∀ target, .goto target ∉ ops

section Lists

variable {a b : List Operation}

/-- Operations that change no scene change none together. -/
theorem Stays.append (ha : Stays a) (hb : Stays b) : Stays (a ++ b) :=
  fun target h => (List.mem_append.mp h).elim (ha target) (hb target)

/-- Operations that put trimmed texts put trimmed texts together. -/
theorem AppendsTrimmed.append (ha : AppendsTrimmed a) (hb : AppendsTrimmed b) :
    AppendsTrimmed (a ++ b) :=
  fun raw name h => (List.mem_append.mp h).elim (ha raw name) (hb raw name)

/-- Operations that put nothing put nothing together. -/
theorem PutsNothing.append (ha : PutsNothing a) (hb : PutsNothing b) : PutsNothing (a ++ b) :=
  fun raw place h => (List.mem_append.mp h).elim (ha raw place) (hb raw place)

/-- Where nothing is put, nothing has blanks at its ends. -/
theorem PutsNothing.appendsTrimmed (h : PutsNothing a) : AppendsTrimmed a :=
  fun raw name hmem => absurd hmem (h raw name)

/-- Where nothing is taken out, nothing is after a tag was put down. -/
theorem TakesNothing.takesFirst (h : TakesNothing a) : TakesFirst a := by
  refine List.pairwise_of_forall_mem_list fun x _ y hy text text' name name' _ htake => ?_
  subst htake
  exact absurd hy (h text' name')

/-- Operations that put nothing down may come first. -/
theorem PutsNothing.takesFirst_append (ha : PutsNothing a) (hb : TakesFirst b) :
    TakesFirst (a ++ b) := by
  refine List.pairwise_append.mpr ⟨?_, hb, ?_⟩
  · refine List.pairwise_of_forall_mem_list fun x hx y _ text text' name name' hput _ => ?_
    subst hput
    exact absurd hx (ha text name)
  · intro x hx y _ text text' name name' hput _
    subst hput
    exact absurd hx (ha text name)

end Lists

/-! ### The phases -/

/-- Paying and meeting the target put nothing down. -/
theorem checkHeld_phase {held : TagSet} {place : String} {s : TagSet} {ops : List Operation}
    (h : forAllTags (checkHeld held place) s = some ops) : PutsNothing ops ∧ Stays ops := by
  refine ⟨fun raw place' hmem => ?_, fun target hmem => ?_⟩ <;>
    obtain ⟨t, -, a, ha, hop⟩ := exists_of_mem_forAllTags h hmem <;>
    rcases checkHeld_cases ha with ⟨-, rfl | rfl⟩ | ⟨-, rfl⟩ <;> simp at hop

/-- Gains go into the player's hands, and nothing is taken out. -/
theorem takeInHand_phase {drag s : TagSet} {ops : List Operation}
    (h : forAllTags (takeInHand drag) s = some ops) :
    TakesNothing ops ∧ Stays ops ∧
      ∀ raw place, .appendTag raw place ∈ ops → place = dragName ∧ ∃ t ∈ s.tags, t.value = raw := by
  refine ⟨fun raw place hmem => ?_, fun target hmem => ?_, fun raw place hmem => ?_⟩ <;>
    obtain ⟨t, ht, a, ha, hop⟩ := exists_of_mem_forAllTags h hmem <;>
    obtain ⟨-, -, rfl⟩ := takeInHand_eq_some ha
  · simp at hop
  · simp at hop
  · simp only [List.mem_cons, reduceCtorEq, Operation.appendTag.injEq, List.not_mem_nil, or_false,
      false_or] at hop
    exact ⟨hop.2, t, ht, hop.1.symm⟩

/-- A context takes from the scenes alone and puts nothing down. -/
structure TakesFromScenes (ops : List Operation) : Prop where
  puts_nothing : PutsNothing ops
  stays : Stays ops
  takes : ∀ raw place, .removeTag raw place ∈ ops → isDrag place = false

namespace World

variable {w : World} {t : Tag} {ops : List Operation} {scene : String}

/-- To record an absence takes nothing from the player. -/
theorem assertNowhere_takesFromScenes (value : String) :
    TakesFromScenes (w.assertNowhere value) := by
  refine ⟨fun raw place hmem => ?_, fun target hmem => ?_, fun raw place hmem => ?_⟩ <;>
    obtain ⟨l, -, heq⟩ := List.mem_map.mp hmem <;> cases heq

/-- A tag found in a scene is taken from that scene. -/
theorem found_takesFromScenes {value : String} {l : Location} (hl : l ∈ w.holders value)
    (hops : ops = [.assertTagIn value l.name, .removeTag value l.name] ∨
      ops = [.assertTagIn value l.name]) : TakesFromScenes ops := by
  have hname : isDrag l.name = false := (mem_scenes.mp (mem_holders.mp hl).1).2
  rcases hops with rfl | rfl <;>
    refine ⟨fun raw place hmem => ?_, fun target hmem => ?_, fun raw place hmem => ?_⟩ <;>
    simp at hmem
  exact hmem.2 ▸ hname

/-- The check of a context tag takes from scenes alone. -/
theorem checkAround_takesFromScenes (h : w.checkAround scene t = some ops) :
    TakesFromScenes ops := by
  unfold checkAround at h
  split at h
  · rcases checkComparison_cases h with rfl | rfl
    · exact ⟨nofun, nofun, nofun⟩
    · refine ⟨fun raw place hmem => ?_, fun target hmem => ?_, fun raw place hmem => ?_⟩ <;>
        obtain ⟨⟨value, name⟩, -, heq⟩ := List.mem_map.mp hmem <;> cases heq
  · rcases checkContext_cases h with ⟨l, hl, hops⟩ | ⟨-, rfl⟩
    · exact found_takesFromScenes hl hops
    · exact assertNowhere_takesFromScenes t.value

/-- The check of a tag that is asked for once takes from scenes alone. -/
theorem checkOnce_takesFromScenes (h : w.checkOnce t = some ops) : TakesFromScenes ops := by
  rcases checkOnce_cases h with ⟨l, hl, hops⟩ | ⟨-, rfl⟩
  · exact found_takesFromScenes hl hops
  · exact assertNowhere_takesFromScenes t.value

end World

/-- A check of a set takes from scenes alone if that of every tag does. -/
theorem TakesFromScenes.of_forAllTags {f : Tag → Option (List Operation)} {s : TagSet}
    {ops : List Operation} (h : forAllTags f s = some ops)
    (heach : ∀ t a, f t = some a → TakesFromScenes a) : TakesFromScenes ops := by
  refine forAllTags_induction h ⟨nofun, nofun, nofun⟩ (fun a b ha hb => ?_) fun t _ => heach t
  exact ⟨ha.puts_nothing.append hb.puts_nothing, ha.stays.append hb.stays, fun raw place hmem =>
    (List.mem_append.mp hmem).elim (ha.takes raw place) (hb.takes raw place)⟩

/-- Records of absence with one tag put down at the end. -/
def LaysOut (t : Tag) (ops : List Operation) : Prop :=
  ∃ (names : List String) (place : String),
    ops = names.map (.assertNoTag t.value) ++ [.appendTag t.value place]

/-- A payload takes nothing out and puts down what it holds. -/
theorem layOut_phase {f : Tag → Option (List Operation)} {s : TagSet} {ops : List Operation}
    (h : forAllTags f s = some ops) (heach : ∀ t a, f t = some a → LaysOut t a) :
    TakesNothing ops ∧ Stays ops ∧
      ∀ raw place, .appendTag raw place ∈ ops → ∃ t ∈ s.tags, t.value = raw := by
  refine ⟨fun raw place hmem => ?_, fun target hmem => ?_, fun raw place hmem => ?_⟩ <;>
    obtain ⟨t, ht, a, ha, hop⟩ := exists_of_mem_forAllTags h hmem <;>
    obtain ⟨names, place', rfl⟩ := heach t a ha
  · simp at hop
  · simp at hop
  · simp only [List.mem_append, List.mem_map, reduceCtorEq, and_false, exists_false,
      List.mem_singleton, Operation.appendTag.injEq, false_or] at hop
    exact ⟨t, ht, hop.1.symm⟩

/-- A tag is laid out at the end. -/
theorem World.layOut_laysOut {w : World} {scene : String} {t : Tag} {ops : List Operation}
    (h : w.layOut scene t = some ops) : LaysOut t ops := by
  obtain ⟨-, -, -, rfl⟩ := layOut_eq_some h
  exact ⟨(w.scenes.filter fun l => !l.tags.hasValue t.value).map Location.name, _, by
    rw [List.map_map]; rfl⟩

/-- A new tag is laid out at the end. -/
theorem World.layOutNew_laysOut {w : World} {scene : String} {t : Tag} {ops : List Operation}
    (h : w.layOutNew scene t = some ops) : LaysOut t ops := by
  obtain ⟨-, -, -, rfl⟩ := layOutNew_eq_some h
  exact ⟨w.scenes.map Location.name, _, by rw [List.map_map]; rfl⟩

/-! ### The whole turn -/

/-- After an opening that puts nothing down, gains go into the player's hands while the context
takes from the scenes, and the payload comes last: from no place is anything taken after a tag was
put there. -/
theorem takesFirst_phases {opening gained around laid : List Operation}
    (hopening : PutsNothing opening) (hgained : TakesNothing gained)
    (hhands : ∀ raw place, .appendTag raw place ∈ gained → place = dragName)
    (haround : TakesFromScenes around) (hlaid : TakesNothing laid) :
    TakesFirst (opening ++ gained ++ around ++ laid) := by
  have hlast : TakesFirst (around ++ laid) :=
    haround.puts_nothing.takesFirst_append hlaid.takesFirst
  have hrest : TakesFirst (gained ++ (around ++ laid)) := by
    refine List.pairwise_append.mpr ⟨hgained.takesFirst, hlast, ?_⟩
    rintro _ hx _ hy text text' name name' rfl rfl
    rw [hhands text name hx]
    rcases List.mem_append.mp hy with hy | hy
    · cases hsame : sameName dragName name' with
      | false => rfl
      | true => rw [← haround.takes text' name' hy, isDrag, sameName_symm hsame]
    · exact absurd hy (hlaid text' name')
  rw [List.append_assoc, List.append_assoc]
  exact hopening.takesFirst_append hrest

/-- Identifiers of tags without blanks are put down as they stand. -/
theorem appendsTrimmed_of_unspaced {s : TagSet} {ops : List Operation}
    (hunspaced : ∀ t ∈ s.tags, t.Unspaced)
    (h : ∀ raw place, .appendTag raw place ∈ ops → ∃ t ∈ s.tags, t.value = raw) :
    AppendsTrimmed ops := by
  intro raw place hmem
  obtain ⟨t, ht, rfl⟩ := h raw place hmem
  exact (hunspaced t ht).trim_value

/-- The scene after a rule: the location its target names, or the scene it was played in. -/
def Rule.LeadsTo (r : Rule) (w : World) (scene scene' : String) : Prop :=
  match r.target.location with
  | none => scene' = scene
  | some name => ∃ l ∈ w.locations, sameName l.name name = true ∧ scene' = l.name

/-- To meet a target puts nothing anywhere and changes no scene. -/
theorem Rule.meet_phase (target : Tag) (scene : String) :
    PutsNothing (meet target scene) ∧ Stays (meet target scene) := by
  unfold meet
  split <;> exact ⟨fun _ _ hmem => by simp at hmem, fun _ hmem => by simp at hmem⟩

/-- To move on puts nothing anywhere. -/
theorem World.moveTo_putsNothing {w : World} {target : Tag} {ops : List Operation}
    (h : Rule.moveTo w target = some ops) : PutsNothing ops := by
  rcases moveTo_eq_some h with ⟨-, rfl⟩ | ⟨name, l, -, -, rfl⟩ <;>
    exact fun _ _ hmem => by simp at hmem

namespace Rule.Phases

variable {r : Rule} {scene : String} {w : World} (p : r.Phases scene w)
include p

/-- Nothing is put down before the gains. -/
theorem opening_putsNothing :
    PutsNothing (p.move ++ meet r.target p.here.name ++ p.paid) :=
  ((World.moveTo_putsNothing p.move_eq).append (meet_phase r.target p.here.name).1).append
    (checkHeld_phase p.paid_eq).1

/-- The context of a rule takes from scenes alone. -/
theorem around_takesFromScenes : TakesFromScenes p.around :=
  .of_forAllTags p.around_eq fun _ _ => World.checkAround_takesFromScenes

/-- A rule takes from a place before it puts anything there. -/
theorem takesFirst : TakesFirst p.operations := by
  obtain ⟨hgained, -, hhands⟩ := takeInHand_phase p.gained_eq
  obtain ⟨hlaid, -, -⟩ := layOut_phase p.laid_eq fun _ _ => World.layOut_laysOut
  exact takesFirst_phases p.opening_putsNothing hgained
    (fun raw place hmem => (hhands raw place hmem).1) p.around_takesFromScenes hlaid

/-- A rule leads where its target does, whatever else it does. -/
theorem leadsTo : r.LeadsTo w scene (sceneAfter scene p.operations) := by
  have hstays := ((((meet_phase r.target p.here.name).2.append (checkHeld_phase p.paid_eq).2).append
    (takeInHand_phase p.gained_eq).2.1).append p.around_takesFromScenes.stays).append
      (layOut_phase p.laid_eq fun _ _ => World.layOut_laysOut).2.1
  have hscene : sceneAfter scene p.operations = sceneAfter scene p.move := by
    rw [operations]
    simp only [List.append_assoc] at hstays ⊢
    rw [sceneAfter_append, sceneAfter_eq_self hstays]
  rw [hscene]
  unfold LeadsTo
  rcases World.moveTo_eq_some p.move_eq with ⟨hnone, hmove⟩ | ⟨name, l, hname, hl, hmove⟩
  · rw [hnone, hmove]
    rfl
  · rw [hname, hmove]
    obtain ⟨hmem, hsame⟩ := World.mem_of_location? hl
    exact ⟨l, hmem, hsame, rfl⟩

/-- What a rule does is read off its operations, and so is the scene it leads to. -/
theorem netEffect {w' : World} {scene' : String} (hw : w.Distinct)
    (hgain : ∀ t ∈ r.gain.tags, t.Unspaced) (hpayload : ∀ t ∈ r.payload.tags, t.Unspaced)
    (h : w.applyInScene scene p.operations = .ok (w', scene')) :
    NetEffect w p.operations w' ∧ r.LeadsTo w scene scene' := by
  obtain ⟨-, -, hhands⟩ := takeInHand_phase p.gained_eq
  obtain ⟨-, -, hputs⟩ := layOut_phase p.laid_eq fun _ _ => World.layOut_laysOut
  have htrim : AppendsTrimmed p.operations :=
    ((p.opening_putsNothing.appendsTrimmed.append
      (appendsTrimmed_of_unspaced hgain fun raw place hmem => (hhands raw place hmem).2)).append
        p.around_takesFromScenes.puts_nothing.appendsTrimmed).append
          (appendsTrimmed_of_unspaced hpayload hputs)
  exact ⟨hw.netEffect p.takesFirst.keepsAppended htrim h,
    World.scene_of_applyInScene h ▸ p.leadsTo⟩

end Rule.Phases

namespace Choice.Phases

variable {c : Choice} {scene : String} {w : World} (p : c.Phases scene w)
include p

/-- The context of a choice takes from scenes alone. -/
theorem around_takesFromScenes : TakesFromScenes p.around :=
  .of_forAllTags p.around_eq fun _ _ => World.checkOnce_takesFromScenes

/-- A choice takes from a place before it puts anything there. -/
theorem takesFirst : TakesFirst p.operations := by
  obtain ⟨hgained, -, hhands⟩ := takeInHand_phase p.gained_eq
  obtain ⟨hlaid, -, -⟩ := layOut_phase p.laid_eq fun _ _ => World.layOutNew_laysOut
  exact takesFirst_phases (checkHeld_phase p.paid_eq).1 hgained
    (fun raw place hmem => (hhands raw place hmem).1) p.around_takesFromScenes hlaid

/-- A choice leaves the player where they are. -/
theorem stays : Stays p.operations :=
  (((checkHeld_phase p.paid_eq).2.append (takeInHand_phase p.gained_eq).2.1).append
    p.around_takesFromScenes.stays).append
      (layOut_phase p.laid_eq fun _ _ => World.layOutNew_laysOut).2.1

/-- What a choice does is read off its operations, and the scene stays. -/
theorem netEffect {w' : World} {scene' : String} (hw : w.Distinct)
    (hgain : ∀ t ∈ c.gain.tags, t.Unspaced) (hpayload : ∀ t ∈ c.payload.tags, t.Unspaced)
    (h : w.applyInScene scene p.operations = .ok (w', scene')) :
    NetEffect w p.operations w' ∧ scene' = scene := by
  obtain ⟨-, -, hhands⟩ := takeInHand_phase p.gained_eq
  obtain ⟨-, -, hputs⟩ := layOut_phase p.laid_eq fun _ _ => World.layOutNew_laysOut
  have htrim : AppendsTrimmed p.operations :=
    (((checkHeld_phase p.paid_eq).1.appendsTrimmed.append
      (appendsTrimmed_of_unspaced hgain fun raw place hmem => (hhands raw place hmem).2)).append
        p.around_takesFromScenes.puts_nothing.appendsTrimmed).append
          (appendsTrimmed_of_unspaced hpayload hputs)
  refine ⟨hw.netEffect p.takesFirst.keepsAppended htrim h, ?_⟩
  rw [World.scene_of_applyInScene h, sceneAfter_eq_self p.stays]

end Choice.Phases

/-- **Net effect of a turn.** When the operations of an accepted rule or choice are applied to the
world it was accepted in, a text lies in a place afterwards exactly when it was put there, or lay
there before and was not taken out. A rule leads to the location that its target names, or leaves
the player in the scene, as every choice does. -/
theorem turn_net_effect {w : World} (hw : w.Distinct) (scene : String) :
    (∀ (r : Rule) (a : Accepted) (w' : World) (scene' : String),
      (∀ t ∈ r.gain.tags, t.Unspaced) → (∀ t ∈ r.payload.tags, t.Unspaced) →
      r.accept scene w = .ok (some a) → w.applyInScene scene a.operations = .ok (w', scene') →
      NetEffect w a.operations w' ∧ r.LeadsTo w scene scene') ∧
    (∀ (c : Choice) (step : ChoiceStep) (w' : World) (scene' : String),
      (∀ t ∈ c.gain.tags, t.Unspaced) → (∀ t ∈ c.payload.tags, t.Unspaced) →
      c.accept scene w = some step → w.applyInScene scene step.operations = .ok (w', scene') →
      NetEffect w step.operations w' ∧ scene' = scene) := by
  constructor
  · intro r a w' scene' hgain hpayload haccept happly
    obtain ⟨p, rfl⟩ := Rule.accept_eq_ok_some_iff.mp haccept
    exact p.netEffect hw hgain hpayload happly
  · intro c step w' scene' hgain hpayload haccept happly
    obtain ⟨p, rfl⟩ := Choice.accept_eq_some_iff.mp haccept
    exact p.netEffect hw hgain hpayload happly

/-! At the inn, hands and cave are emptied and filled again within one turn. -/

namespace Inn

def crownThere : Tag := ⟨"crown", ⟨.plain, "crown", none, .unset⟩, by decide, by rfl⟩

/-- Bread is in hand, the crown lies in the cave, and a sword took the place of the king. -/
def afterDeal : World :=
  ⟨[⟨"HOME", .ofList [door, gold, sword]⟩, ⟨"DRAG", .singleton bread⟩,
    ⟨"cave", .singleton crownThere⟩]⟩

/-- Bread is in hand, and the crown lies in the cave. -/
def afterRiddle : World :=
  ⟨[⟨"HOME", .ofList [door, gold, kingHere]⟩, ⟨"DRAG", .singleton bread⟩,
    ⟨"cave", .singleton crownThere⟩]⟩

/-- The deal can be played. -/
theorem deal_applied :
    world.applyInScene "home" dealOperations = .ok (afterDeal, "CAVE") := by rfl

/-- The riddle can be played. -/
theorem riddle_applied :
    world.applyInScene "home" riddleOperations = .ok (afterRiddle, "home") := by rfl

/-- The deal and the riddle do what is read off their operations. -/
theorem turns_net_effect :
    world.Distinct ∧ deal.accept "home" world = .ok (some ⟨none, dealOperations⟩) ∧
      world.applyInScene "home" dealOperations = .ok (afterDeal, "CAVE") ∧
      NetEffect world dealOperations afterDeal ∧ deal.LeadsTo world "home" "CAVE" ∧
      riddle.accept "home" world = some ⟨"RIDDLE-1", riddleOperations⟩ ∧
      world.applyInScene "home" riddleOperations = .ok (afterRiddle, "home") ∧
      NetEffect world riddleOperations afterRiddle := by
  have hgain : ∀ t ∈ deal.gain.tags, t.Unspaced := by decide
  have hpayload : ∀ t ∈ deal.payload.tags, t.Unspaced := by decide
  have hgain' : ∀ t ∈ riddle.gain.tags, t.Unspaced := by decide
  have hpayload' : ∀ t ∈ riddle.payload.tags, t.Unspaced := by decide
  obtain ⟨hrules, hchoices⟩ := turn_net_effect distinct "home"
  have hdeal := hrules deal _ _ _ hgain hpayload deal_accepted deal_applied
  have hriddle := hchoices riddle _ _ _ hgain' hpayload' riddle_accepted riddle_applied
  exact ⟨distinct, deal_accepted, deal_applied, hdeal.1, hdeal.2, riddle_accepted, riddle_applied,
    hriddle.1⟩

end Inn

end StoryTape
