import Mathlib.Logic.Relation
import StoryTape.Proofs.CleanTape
import StoryTape.Proofs.Places
import StoryTape.Proofs.Truthful
import StoryTape.Proofs.Turn

/-!
# Histories of playthroughs

A player takes turns that are on offer and takes turns back. Taking a turn back leads to where the
turn was taken, so whatever can be reached at all is reached by turns alone, and its history is a
sequence of turns from the start. A turn applies the operations of an accepted rule or choice; the
texts it shows move counters within their places, so its operations alone decide which places there
are afterwards.
-/

namespace StoryTape

open Text

/-- The operations of an accepted rule or choice. -/
inductive Accepts (w : World) (scene : String) : List Operation → Prop
  | rule {r : Rule} (p : r.Phases scene w) : Accepts w scene p.operations
  | choice {c : Choice} (p : c.Phases scene w) : Accepts w scene p.operations

namespace Accepts

variable {w : World} {scene : String} {ops : List Operation}

/-- What is accepted takes from a place before it puts anything there. -/
theorem takesFirst (h : Accepts w scene ops) : TakesFirst ops := by
  cases h with
  | rule p => exact p.takesFirst
  | choice p => exact p.takesFirst

/-- What is accepted records what is true of the world. -/
theorem truthful (hw : w.Distinct) (h : Accepts w scene ops) : Truthful w ops := by
  cases h with
  | rule p => exact (p.truthful hw).1
  | choice p => exact (p.truthful hw).1

end Accepts

/-! ### Texts keep places -/

/-- The same places are there, under names that are as distinct as before. -/
structure KeepsPlaces (w w' : World) : Prop where
  distinct : w'.Distinct
  places : ∀ place, w'.HasPlace place ↔ w.HasPlace place

/-- A world keeps its own places. -/
theorem KeepsPlaces.refl {w : World} (hw : w.Distinct) : KeepsPlaces w w := ⟨hw, fun _ => Iff.rfl⟩

/-- Places that are kept twice are kept. -/
theorem KeepsPlaces.trans {w w' w'' : World} (h : KeepsPlaces w w') (h' : KeepsPlaces w' w'') :
    KeepsPlaces w w'' :=
  ⟨h'.distinct, fun place => (h'.places place).trans (h.places place)⟩

/-- A counter is moved on in its place, if at all. -/
def MovesCounter (ops : List Operation) : Prop :=
  ops = [] ∨ ∃ old new place, ops = [.removeTag old place, .appendTag new place]

/-- Reading a sequence at most moves its counter on. -/
theorem TextBook.movesCounter_readSequence {b : TextBook} {w : World} {name : String}
    {reading : Reading} (h : b.readSequence? w name = some reading) :
    MovesCounter reading.operations := by
  simp only [readSequence?] at h
  split at h
  · cases h
  · split at h
    · cases h
    · cases h
      dsimp only
      split
      · exact .inl rfl
      · exact .inr ⟨_, _, _, rfl⟩

/-- Reading a key at most moves its counter on. -/
theorem TextBook.movesCounter_readKey {b : TextBook} {w : World} {key : String} {reading : Reading}
    (h : b.readKey w key = .ok reading) : MovesCounter reading.operations := by
  rw [readKey] at h
  split at h
  · next reading' hread =>
    cases h
    exact movesCounter_readSequence hread
  · cases hline : b.line key with
    | error e => rw [hline] at h; cases h
    | ok line => rw [hline] at h; cases h; exact .inl rfl

/-- Reading a name at most moves its counter on. -/
theorem TextBook.movesCounter_readName {b : TextBook} {w : World} {name : String}
    {reading : Reading} (h : b.readName w name = .ok reading) :
    MovesCounter reading.operations := by
  simp only [readName] at h
  split at h
  · next reading' hread =>
    cases h
    exact movesCounter_readSequence hread
  · split at h
    · cases h
      exact .inl rfl
    · exact movesCounter_readKey h

namespace World

variable {w w' : World} {ops : List Operation}

/-- The place a counter is taken from is the one it is put into again. -/
theorem Distinct.keepsPlaces_apply (hw : w.Distinct) (hops : MovesCounter ops)
    (h : w.apply ops = .ok w') : KeepsPlaces w w' := by
  obtain ⟨⟨w₁, scene⟩, happly, rfl⟩ : ∃ r, w.applyInScene "" ops = .ok r ∧ r.1 = w' := by
    rw [World.apply] at h
    cases hrun : w.applyInScene "" ops with
    | error e => rw [hrun] at h; cases h
    | ok r => rw [hrun] at h; exact ⟨r, rfl, Except.ok.inj h⟩
  refine ⟨hw.applyInScene happly, fun place => ?_⟩
  rcases hops with rfl | ⟨old, new, counters, rfl⟩
  · cases happly
    exact Iff.rfl
  · have hfirst : TakesFirst [.removeTag old counters, .appendTag new counters] := by
      simp [TakesFirst]
    have hthere : w.HasPlace counters := by
      obtain ⟨w₂, scene₂, hremove, -⟩ := applyInScene_cons happly
      obtain ⟨-, ⟨tag, name, ls, hop, htake, -⟩ | ⟨_, _, _, hop, -⟩ | ⟨hop, -⟩⟩ :=
        applyOne_cases hremove
      · cases hop
        exact takeTag_isSome_iff.mp ⟨ls, htake⟩
      · cases hop
      · exact absurd rfl (hop old counters)
    rw [hw.hasPlace_applyInScene hfirst happly]
    by_cases hp : sameName counters place = true
    · have hput : Appends [.removeTag old counters, .appendTag new counters] new place :=
        ⟨counters, by simp, hp⟩
      exact iff_of_true (.inl ⟨new, hput⟩) ((hasPlace_congr hp).mp hthere)
    · simp [Appends, Keeps, Removes, hp]

end World

namespace Playthrough

variable {b : TextBook} {w w' : World}

/-- Showing a reading keeps the places. -/
theorem keepsPlaces_showReading (hw : w.Distinct) {reading : Reading} {keys : List String}
    (hops : MovesCounter reading.operations) (h : showReading w reading = .ok (w', keys)) :
    KeepsPlaces w w' := by
  obtain ⟨_, happly, h⟩ := bind_eq_ok_iff.mp h
  cases h
  exact hw.keepsPlaces_apply hops happly

/-- Showing keys keeps the places. -/
theorem keepsPlaces_showKeys (hw : w.Distinct) {keys shown : List String}
    (h : showKeys b w keys = .ok (w', shown)) : KeepsPlaces w w' := by
  induction keys generalizing w shown with
  | nil =>
    cases h
    exact .refl hw
  | cons key keys ih =>
    obtain ⟨reading, hread, h⟩ := bind_eq_ok_iff.mp h
    obtain ⟨⟨w₁, first⟩, hfirst, h⟩ := bind_eq_ok_iff.mp h
    obtain ⟨⟨w₂, others⟩, hothers, h⟩ := bind_eq_ok_iff.mp h
    cases h
    have hkeeps := keepsPlaces_showReading hw (TextBook.movesCounter_readKey hread) hfirst
    exact hkeeps.trans (ih hkeeps.distinct hothers)

/-- Following gotos keeps the places. -/
theorem keepsPlaces_follow (hw : w.Distinct) {hops : Nat} {name : String} {node : Option String}
    {keys : List String} (h : follow b hops w name = some (.ok (w', node, keys))) :
    KeepsPlaces w w' := by
  induction hops generalizing w name node keys with
  | zero => simp [follow] at h
  | succ hops ih =>
    rw [follow] at h
    split at h
    · obtain ⟨reading, hread, h⟩ := bind_eq_ok_iff.mp (Option.some.inj h)
      obtain ⟨shown, hshown, h⟩ := bind_eq_ok_iff.mp h
      cases h
      exact keepsPlaces_showReading hw (TextBook.movesCounter_readName hread) hshown
    · split at h
      · cases h
      · next w₁ first hshow =>
        have hkeeps : KeepsPlaces w w₁ := keepsPlaces_showKeys hw hshow
        split at h
        · cases h
          exact hkeeps
        · split at h
          · cases h
            exact hkeeps
          · obtain ⟨rest, hrest, h⟩ := Option.map_eq_some_iff.mp h
            obtain ⟨⟨w₂, node₂, others⟩, rfl, h⟩ := bind_eq_ok_iff.mp h
            cases h
            exact hkeeps.trans (ih hkeeps.distinct hrest)

/-- Entering a name keeps places, however many gotos are followed. -/
theorem keepsPlaces_enter (hw : w.Distinct) {name : String} {node : Option String}
    {keys : List String} (h : enter b w name = .ok (w', node, keys)) : KeepsPlaces w w' := by
  rw [enter] at h
  cases hfollow : follow b gotoLimit w name with
  | none => rw [hfollow] at h; cases h
  | some result =>
    rw [hfollow] at h
    exact keepsPlaces_follow hw (hfollow.trans (congrArg some h))

/-! ### Turns -/

/-- An action or a choice on offer has the given operations and text. -/
def Offers (p : Playthrough) (ops : List Operation) (text : Option String) : Prop :=
  (∃ actions, p.actions = .ok actions ∧
    ∃ a ∈ actions.entries, a.operations = ops ∧ a.text = text) ∨
  ∃ i step, (i, step) ∈ p.choices ∧ step.operations = ops ∧ some step.next = text

variable {p p' p₀ : Playthrough} {ops : List Operation} {text : Option String}

/-- What is on offer was accepted in the current world. -/
theorem Offers.accepts (h : p.Offers ops text) : Accepts p.world p.scene ops := by
  rcases h with ⟨actions, hactions, a, ha, rfl, -⟩ | ⟨i, step, hstep, rfl, -⟩
  · obtain ⟨book, -, r, -, accepted, haccept, -, hops⟩ :=
      exists_accepted_of_mem_offeredActions hactions ha
    obtain ⟨phases, rfl⟩ := Rule.accept_eq_ok_some_iff.mp haccept
    exact hops ▸ .rule phases
  · rw [choices] at hstep
    split at hstep
    · cases hstep
    · obtain ⟨⟨c, j⟩, -, hmap⟩ := List.mem_filterMap.mp hstep
      obtain ⟨step', haccept, hpair⟩ := Option.map_eq_some_iff.mp hmap
      obtain ⟨phases, rfl⟩ := Choice.accept_eq_some_iff.mp haccept
      cases hpair
      exact .choice phases

/-- What a turn does: its operations are applied, and what it shows keeps places. -/
theorem exists_applied_of_advance (hw : p.world.Distinct) {keys : List String}
    (h : p.advance ops text = (p', .ok keys)) :
    ∃ w, p.world.applyInScene p.scene ops = .ok (w, p'.scene) ∧ KeepsPlaces w p'.world := by
  obtain ⟨f, hframe, rfl⟩ := advance_eq_ok_iff.mp h
  obtain ⟨⟨w, scene⟩, happly, h⟩ := bind_eq_ok_iff.mp hframe
  have hw' : w.Distinct := hw.applyInScene happly
  cases text with
  | none =>
    cases h
    exact ⟨w, happly, .refl hw'⟩
  | some name =>
    obtain ⟨⟨w', node, shown⟩, henter, h⟩ := bind_eq_ok_iff.mp h
    cases h
    exact ⟨w, happly, keepsPlaces_enter hw' henter⟩

/-- A turn puts the frame it was taken in behind the current one. -/
theorem undo?_of_advance {keys : List String} (h : p.advance ops text = (p', .ok keys)) :
    p'.undo? = some p := by
  obtain ⟨f, -, rfl⟩ := advance_eq_ok_iff.mp h
  rfl

/-- A turn on offer leads from one playthrough to the other. -/
def Turn (p : Playthrough) (ops : List Operation) (p' : Playthrough) : Prop :=
  ∃ text keys, p.Offers ops text ∧ p.advance ops text = (p', .ok keys)

/-- Some turn on offer leads from one playthrough to the other. -/
def Goes (p p' : Playthrough) : Prop := ∃ ops, p.Turn ops p'

/-- What a player can do: take a turn, or take one back. -/
inductive Step (p : Playthrough) : Playthrough → Prop
  | turn {p' : Playthrough} (h : p.Goes p') : Step p p'
  | undo {p' : Playthrough} (h : p.undo? = some p') : Step p p'

/-- What was reached is reached from its start step by step. -/
theorem Reached.exists_steps {t : Tape} (hp : Reached t p) :
    ∃ scene p₀, Playthrough.start t scene = .ok p₀ ∧ Relation.ReflTransGen Step p₀ p := by
  induction hp with
  | start h => exact ⟨_, _, h, .refl⟩
  | @perform p p' actions a keys _ hactions ha h ih =>
    obtain ⟨scene, p₀, hstart, hsteps⟩ := ih
    have hoffer : p.Offers a.operations a.text := .inl ⟨actions, hactions, a, ha, rfl, rfl⟩
    exact ⟨scene, p₀, hstart, hsteps.tail (.turn ⟨_, _, _, hoffer, h⟩)⟩
  | @take p p' i step keys _ hstep h ih =>
    obtain ⟨scene, p₀, hstart, hsteps⟩ := ih
    have hoffer : p.Offers step.operations (some step.next) := .inr ⟨i, step, hstep, rfl, rfl⟩
    exact ⟨scene, p₀, hstart, hsteps.tail (.turn ⟨_, _, _, hoffer, h⟩)⟩
  | undo _ h ih =>
    obtain ⟨scene, p₀, hstart, hsteps⟩ := ih
    exact ⟨scene, p₀, hstart, hsteps.tail (.undo h)⟩

/-- **Undoing leads nowhere new.** What turns and turns taken back lead to, turns alone lead to. -/
theorem goes_of_steps (hstart : p₀.past = []) (h : Relation.ReflTransGen Step p₀ p) :
    Relation.ReflTransGen Goes p₀ p := by
  induction h with
  | refl => exact .refl
  | tail _ hstep ih =>
    cases hstep with
    | turn h => exact ih.tail h
    | undo h =>
      rcases Relation.ReflTransGen.cases_tail ih with rfl | ⟨q, hq, ops, text, keys, -, hturn⟩
      · rw [undo?, hstart] at h
        cases h
      · rw [undo?_of_advance hturn] at h
        cases h
        exact hq

/-- Along a history names stay distinct. -/
theorem distinct_of_goes (hw : p₀.world.Distinct) (h : Relation.ReflTransGen Goes p₀ p) :
    p.world.Distinct := by
  induction h with
  | refl => exact hw
  | tail _ hgoes ih =>
    obtain ⟨ops, text, keys, -, hturn⟩ := hgoes
    obtain ⟨w, -, hkeeps⟩ := exists_applied_of_advance ih hturn
    exact hkeeps.distinct

/-- A playthrough starts in the world of its tape, in the scene that was asked for. -/
theorem start_eq_ok {t : Tape} {scene : Option String} (h : start t scene = .ok p) :
    ∃ name, startScene t scene = .ok name ∧
      p = { tape := t, current := { world := t.world, scene := name } } := by
  obtain ⟨name, hname, h⟩ := bind_eq_ok_iff.mp h
  exact ⟨name, hname, (pure_eq_ok_iff.mp h).symm⟩

/-- In every world of a playthrough names are distinct if they are in that of the tape. -/
theorem Reached.distinct {t : Tape} (ht : t.world.Distinct) (hp : Reached t p) :
    p.world.Distinct := by
  obtain ⟨scene, p₀, hstart, hsteps⟩ := hp.exists_steps
  obtain ⟨name, -, rfl⟩ := start_eq_ok hstart
  let opening : Playthrough := { tape := t, current := { world := t.world, scene := name } }
  have hw : opening.world.Distinct := ht
  exact distinct_of_goes hw (goes_of_steps rfl hsteps)

end Playthrough

end StoryTape
