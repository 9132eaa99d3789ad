import StoryTape.Proofs.Playable

/-!
# Where the player stands

A tape starts in a location of its world that the player can be in. A rule is played in a location
that is there and leads to one that is there, a choice leaves the player where they are. But a turn
can take everything out of the place it leads to, and that place vanishes under the player until
something is put there again; and a rule may lead to any location, even to one that holds no scene.
So from the start on the player stands in a real place, unless a turn of the history says otherwise.
-/

namespace StoryTape

open Text Relation

/-- All that lies in the place is taken out, and nothing is put there. -/
def Empties (w : World) (ops : List Operation) (place : String) : Prop :=
  (∃ text, Removes ops text place) ∧ (∀ raw, w.HoldsRaw raw place → Removes ops raw place) ∧
    ∀ text, ¬ Appends ops text place

/-- A place that was there is there afterwards unless the operations empty it. -/
theorem World.Distinct.hasPlace_or_empties {w w' : World} {scene scene' place : String}
    {ops : List Operation} (hw : w.Distinct) (hops : TakesFirst ops)
    (h : w.applyInScene scene ops = .ok (w', scene')) (hplace : w.HasPlace place) :
    w'.HasPlace place ∨ Empties w ops place := by
  by_cases hthere : w'.HasPlace place
  · exact .inl hthere
  · rw [hw.hasPlace_applyInScene hops h, not_or] at hthere
    obtain ⟨hputs, hgone⟩ := hthere
    have hnot : ¬ w.Keeps ops place := fun hkeeps => hgone ⟨hplace, hkeeps⟩
    rw [World.Keeps, Classical.not_imp] at hnot
    obtain ⟨htakes, hleft⟩ := hnot
    refine .inr ⟨htakes, fun raw hraw => ?_, fun text hputs' => hputs ⟨text, hputs'⟩⟩
    exact Classical.not_not.mp fun hno => hleft ⟨raw, hraw, hno⟩

/-- The scene that operations lead to is where they started or one that they ask for. -/
theorem sceneAfter_eq_or_goto_mem (scene : String) (ops : List Operation) :
    sceneAfter scene ops = scene ∨ .goto (sceneAfter scene ops) ∈ ops := by
  induction ops generalizing scene with
  | nil => exact .inl rfl
  | cons op ops ih =>
    rcases ih (op.sceneAfter scene) with h | h
    · have hafter : sceneAfter scene (op :: ops) = op.sceneAfter scene := h
      rw [hafter]
      cases op with
      | goto target => exact .inr List.mem_cons_self
      | _ => exact .inl rfl
    · exact .inr (List.mem_cons_of_mem _ h)

namespace Accepts

variable {w : World} {scene : String} {ops : List Operation}

/-- A rule leads to a location of the world; a choice leaves the player where they are. -/
theorem hasPlace_sceneAfter (h : Accepts w scene ops) :
    w.HasPlace (sceneAfter scene ops) ∨ sceneAfter scene ops = scene := by
  cases h with
  | @rule r p =>
    have hhere : w.HasPlace scene := World.hasPlace_iff_location?.mpr ⟨p.here, p.here_eq⟩
    have hleads := p.leadsTo
    rw [Rule.LeadsTo] at hleads
    split at hleads
    · exact .inr hleads
    · obtain ⟨l, hl, -, hscene⟩ := hleads
      exact .inl (hscene ▸ ⟨l, hl, sameName_refl _⟩)
  | choice p => exact .inr (sceneAfter_eq_self p.stays)

end Accepts

namespace Playthrough

/-- Some turn of the history did this, and the player has been so ever since. -/
inductive Since (did : Playthrough → List Operation → Prop) (so : Playthrough → Prop)
    (p₀ : Playthrough) : Playthrough → Prop
  | done {q p : Playthrough} {ops : List Operation} (reached : ReflTransGen Goes p₀ q)
      (turn : q.Turn ops p) (hdid : did q ops) (hso : so p) : Since did so p₀ p
  | stayed {q p : Playthrough} (before : Since did so p₀ q) (goes : q.Goes p) (hso : so p) :
      Since did so p₀ p

/-- The place was emptied under the player, who has been there ever since and it has not come
back. -/
def SinceEmptied (place : String) (p₀ p : Playthrough) : Prop :=
  Since (fun q ops => Empties q.world ops place)
    (fun q => q.scene = place ∧ ¬ q.world.HasPlace place) p₀ p

/-- The player was sent to the place and has been there ever since. -/
def SinceSent (place : String) (p₀ p : Playthrough) : Prop :=
  Since (fun _ ops => .goto place ∈ ops) (fun q => q.scene = place) p₀ p

/-- The player stands in a real place, or what happened to that place is on record. -/
def Stands (p₀ p : Playthrough) : Prop :=
  (p.world.HasPlace p.scene ∨ SinceEmptied p.scene p₀ p) ∧
    (isReserved p.scene = false ∨ SinceSent p.scene p₀ p)

variable {p₀ p p' : Playthrough} {ops : List Operation}

/-- One turn keeps to the record. -/
theorem Stands.turn (hw : p.world.Distinct) (hreached : ReflTransGen Goes p₀ p)
    (h : Stands p₀ p) (hturn : p.Turn ops p') : Stands p₀ p' := by
  obtain ⟨text, keys, hoffer, hadvance⟩ := hturn
  have hturn : p.Turn ops p' := ⟨text, keys, hoffer, hadvance⟩
  obtain ⟨w, happly, hkeeps⟩ := exists_applied_of_advance hw hadvance
  have haccepts := hoffer.accepts
  have hscene : p'.scene = sceneAfter p.scene ops := World.scene_of_applyInScene happly
  have hstays : p.world.HasPlace p'.scene → p'.world.HasPlace p'.scene ∨
      SinceEmptied p'.scene p₀ p' := by
    intro hplace
    by_cases hthere : p'.world.HasPlace p'.scene
    · exact .inl hthere
    · rcases hw.hasPlace_or_empties haccepts.takesFirst happly hplace with hw' | hempties
      · exact absurd ((hkeeps.places _).mpr hw') hthere
      · exact .inr (.done hreached hturn hempties ⟨rfl, hthere⟩)
  constructor
  · rcases haccepts.hasPlace_sceneAfter with hplace | hsame
    · exact hstays (hscene ▸ hplace)
    · rw [← hscene] at hsame
      rcases h.1 with hplace | hsince
      · exact hstays (hsame ▸ hplace)
      · by_cases hthere : p'.world.HasPlace p'.scene
        · exact .inl hthere
        · exact .inr (.stayed (hsame ▸ hsince) ⟨ops, hturn⟩ ⟨rfl, hthere⟩)
  · rcases sceneAfter_eq_or_goto_mem p.scene ops with hsame | hgoto
    · rw [← hscene] at hsame
      rcases h.2 with hfree | hsince
      · exact .inl (hsame ▸ hfree)
      · exact .inr (.stayed (hsame ▸ hsince) ⟨ops, hturn⟩ rfl)
    · exact .inr (.done hreached hturn (hscene ▸ hgoto) rfl)

/-- A whole history keeps to the record. -/
theorem stands_of_goes (hw : p₀.world.Distinct) (h₀ : Stands p₀ p₀)
    (h : ReflTransGen Goes p₀ p) : Stands p₀ p := by
  induction h with
  | refl => exact h₀
  | tail hreached hgoes ih =>
    obtain ⟨ops, hturn⟩ := hgoes
    exact ih.turn (distinct_of_goes hw hreached) hreached hturn

/-- A tape starts in the first of its locations that the player can be in. -/
theorem startScene_none_eq_ok {t : Tape} {scene : String} (h : startScene t none = .ok scene) :
    t.world.HasPlace scene ∧ isReserved scene = false := by
  rw [startScene] at h
  split at h
  · next l hl =>
    cases h
    have hfree := List.find?_some hl
    exact ⟨⟨l, List.mem_of_find?_eq_some hl, sameName_refl _⟩, by simpa using hfree⟩
  · cases h

end Playthrough

open Playthrough

/-- **The player stands in a real place.** However many turns are taken and taken back from the
start of a compiled tape, the player is in a location of the world, or in one that an earlier turn
emptied and that has been gone since; and that location is one that the player can be in, or one
that an earlier turn led to. -/
theorem player_stands {t : Tape} (ht : Script.Compiled t) {p₀ p : Playthrough}
    (hstart : Playthrough.start t none = .ok p₀) (hsteps : ReflTransGen Step p₀ p) :
    (p.world.HasPlace p.scene ∨ SinceEmptied p.scene p₀ p) ∧
      (isReserved p.scene = false ∨ SinceSent p.scene p₀ p) := by
  obtain ⟨name, hname, rfl⟩ := start_eq_ok hstart
  obtain ⟨hplace, hfree⟩ := startScene_none_eq_ok hname
  let opening : Playthrough := { tape := t, current := { world := t.world, scene := name } }
  have hw : opening.world.Distinct := ht.distinct
  exact stands_of_goes hw
    ⟨.inl hplace, .inl hfree⟩ (goes_of_steps rfl hsteps)

/-! The coronation takes the last tag out of the hall, and the player is left where it was. -/

namespace Throne

/-- The throne room once the crown was dropped onto the king. -/
def deserted : Playthrough :=
  { tape, current := { world := .empty, scene := "HALL" }, past := [opening.current] }

/-- The coronation leads from the opening to the deserted throne room. -/
theorem opening_turn : opening.Turn coronation deserted :=
  ⟨none, [], offered, by rfl⟩

/-- In the deserted throne room there is no place at all. -/
theorem deserted_hasPlace (place : String) : ¬ deserted.world.HasPlace place :=
  fun ⟨_, hl, _⟩ => absurd hl List.not_mem_nil

end Throne

/-- No location has the name of the hall, which the last turn emptied. -/
theorem player_stands_deserted :
    Script.Compiled Throne.tape ∧ Playthrough.start Throne.tape none = .ok Throne.opening ∧
      ReflTransGen Step Throne.opening Throne.deserted ∧
      SinceEmptied "HALL" Throne.opening Throne.deserted := by
  have hsteps : ReflTransGen Step Throne.opening Throne.deserted :=
    .single (.turn ⟨_, Throne.opening_turn⟩)
  obtain ⟨hstands, -⟩ := player_stands Throne.compiled Throne.starts hsteps
  have hsince := hstands.resolve_left (Throne.deserted_hasPlace _)
  exact ⟨Throne.compiled, Throne.starts, hsteps, hsince⟩

namespace Pocket

def gold : Tag := ⟨"gold", ⟨.plain, "gold", none, .unset⟩, by decide, by rfl⟩
def door : Tag := Inn.door
def doorToHands : Tag :=
  ⟨"?door<DRAG>", ⟨.required, "door", some "DRAG", .unset⟩, by decide, by rfl⟩

/-- The door leads into the player's own hands. -/
def script : String := "== POCKET [HALL, door] [DRAG, gold]\n++ ()-[?door<DRAG>]->()"

/-- A hall whose door leads into the player's hands. -/
def tape : Tape :=
  { label := "POCKET", world := ⟨[⟨"HALL", .singleton door⟩, ⟨"DRAG", .singleton gold⟩]⟩,
    rules := [{ target := doorToHands }] }

/-- Where the tape starts. -/
def opening : Playthrough := { tape, current := { world := tape.world, scene := "HALL" } }

/-- Behind the door. -/
def inHand : Playthrough :=
  { tape, current := { world := tape.world, scene := "DRAG" }, past := [opening.current] }

/-- The tape is compiled from the script. -/
theorem compiled : Script.Compiled tape :=
  Script.compiled_of_tapes script [tape] (by decide +kernel)
    List.mem_cons_self

/-- The tape starts at its opening. -/
theorem starts : Playthrough.start tape none = .ok opening := by rfl

/-- The door is taken from the opening. -/
theorem opening_turn : opening.Turn [.goto "DRAG", .assertTagIn "door" "HALL"] inHand :=
  ⟨none, [], .inl ⟨⟨[⟨"Poke the door. ", none, _⟩]⟩, by rfl, _, List.mem_cons_self, rfl, rfl⟩,
    by rfl⟩

end Pocket

/-- One turn from the default start of a compiled tape the player can be in no location at all, or
in their own hands. -/
theorem player_strays :
    (Script.Compiled Throne.tape ∧ Playthrough.start Throne.tape none = .ok Throne.opening ∧
      ReflTransGen Step Throne.opening Throne.deserted ∧
      ¬ Throne.deserted.world.HasPlace Throne.deserted.scene) ∧
    Script.Compiled Pocket.tape ∧ Playthrough.start Pocket.tape none = .ok Pocket.opening ∧
      ReflTransGen Step Pocket.opening Pocket.inHand ∧ isReserved Pocket.inHand.scene = true :=
  ⟨⟨Throne.compiled, Throne.starts, .single (.turn ⟨_, Throne.opening_turn⟩),
    Throne.deserted_hasPlace _⟩,
    Pocket.compiled, Pocket.starts, .single (.turn ⟨_, Pocket.opening_turn⟩), by decide⟩

end StoryTape
