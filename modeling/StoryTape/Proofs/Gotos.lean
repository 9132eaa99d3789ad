import StoryTape.Play.Playthrough
import StoryTape.Proofs.Runs

/-!
# Chains of gotos

Entering a name shows a text or a node. A node without choices goes on to what its goto names, so
gotos form a chain, which ends at a text, at a node with choices or at a node without goto, or never
ends. A walk looks at a fixed number of names and not at a fixed number of gotos: the last name it
looks at may show what stands there, but a goto found there is one too many. So a walk ends well
exactly on the chains that take fewer gotos than there are names to look at.
-/

namespace StoryTape

namespace Playthrough

/-- What a name stands for can be shown, and the chain stops there: the world after it, the node
whose choices are on offer, and the keys shown. -/
inductive Stops (b : TextBook) (w : World) (name : String) :
    World → Option String → List String → Prop
  /-- The lines of a text are shown. -/
  | text {reading : Reading} {w' : World} {keys : List String} (hnode : b.route? name = none)
      (hread : b.readName w name = .ok reading) (hshow : showReading w reading = .ok (w', keys)) :
      Stops b w name w' none keys
  /-- The node has choices to offer. -/
  | offers {node : DialogueNode} {w' : World} {keys : List String}
      (hnode : b.route? name = some node) (hshow : showKeys b w node.readingOrder = .ok (w', keys))
      (hchoices : node.choices ≠ []) : Stops b w name w' (some name) keys
  /-- The node does not go on. -/
  | ends {node : DialogueNode} {w' : World} {keys : List String}
      (hnode : b.route? name = some node) (hshow : showKeys b w node.readingOrder = .ok (w', keys))
      (hchoices : node.choices = []) (hgoto : node.goto = none) : Stops b w name w' none keys

/-- A node without choices is shown and goes on: the world after it, the name it goes on to, and the
keys shown. -/
inductive GoesOn (b : TextBook) (w : World) (name : String) :
    World → String → List String → Prop
  | goto {node : DialogueNode} {w' : World} {next : String} {keys : List String}
      (hnode : b.route? name = some node) (hshow : showKeys b w node.readingOrder = .ok (w', keys))
      (hchoices : node.choices = []) (hgoto : node.goto = some next) : GoesOn b w name w' next keys

/-- A number of gotos lead from one name to another: the world on arrival, and the keys shown on
the way. -/
inductive Gotos (b : TextBook) : Nat → World → String → World → String → List String → Prop
  | here (w : World) (name : String) : Gotos b 0 w name w name []
  | next {n : Nat} {w w' w'' : World} {name next last : String} {keys others : List String}
      (hgoes : GoesOn b w name w' next keys) (hrest : Gotos b n w' next w'' last others) :
      Gotos b (n + 1) w name w'' last (keys ++ others)

/-- What a name stands for can be shown: no text is missing and no operation fails. -/
def Showable (b : TextBook) (w : World) (name : String) : Prop :=
  match b.route? name with
  | none => ∃ reading shown, b.readName w name = .ok reading ∧ showReading w reading = .ok shown
  | some node => ∃ shown, showKeys b w node.readingOrder = .ok shown

/-- Whatever the gotos from a name lead to can be shown, as far as a walk looks. -/
def Smooth (b : TextBook) (w : World) (name : String) : Prop :=
  ∀ n w' name' keys, n < gotoLimit → Gotos b n w name w' name' keys → Showable b w' name'

variable {b : TextBook} {w w' : World} {name : String}

/-- Where the chain stops, a walk that looks at one name shows it. -/
theorem Stops.follow_eq {node : Option String} {keys : List String}
    (h : Stops b w name w' node keys) (hops : Nat) :
    follow b (hops + 1) w name = some (.ok (w', node, keys)) := by
  cases h with
  | text hnode hread hshow =>
    rw [follow, hnode]
    simp [hread, hshow, Bind.bind, Except.bind, Pure.pure, Except.pure]
  | offers hnode hshow hchoices => simp [follow, hnode, hshow, hchoices]
  | ends hnode hshow hchoices hgoto => simp [follow, hnode, hshow, hchoices, hgoto]

/-- Where the chain goes on, a walk shows the node in front of what comes next. -/
theorem GoesOn.follow_eq {next : String} {keys : List String} (h : GoesOn b w name w' next keys)
    (hops : Nat) : follow b (hops + 1) w name =
      (follow b hops w' next).map (·.map fun r => (r.1, r.2.1, keys ++ r.2.2)) := by
  cases h with
  | goto hnode hshow hchoices hgoto =>
    rw [follow, hnode]
    simp only [hshow, hchoices, hgoto]
    cases follow b hops w' next with
    | none => rfl
    | some r => cases r <;> rfl

/-- At each name the chain stops or goes on, or something cannot be shown. -/
theorem follow_succ_cases (b : TextBook) (w : World) (name : String) (hops : Nat) :
    (∃ w' node keys, Stops b w name w' node keys) ∨ (∃ w' next keys, GoesOn b w name w' next keys) ∨
      (∃ e, follow b (hops + 1) w name = some (.error e)) ∧ ¬ Showable b w name := by
  cases hnode : b.route? name with
  | none =>
    cases hread : b.readName w name with
    | error e =>
      refine .inr (.inr ⟨⟨e, ?_⟩, by simp [Showable, hnode, hread]⟩)
      rw [follow, hnode]
      simp [hread, Bind.bind, Except.bind]
    | ok reading =>
      cases hshow : showReading w reading with
      | error e =>
        refine .inr (.inr ⟨⟨e, ?_⟩, by simp [Showable, hnode, hread, hshow]⟩)
        rw [follow, hnode]
        simp [hread, hshow, Bind.bind, Except.bind]
      | ok shown => exact .inl ⟨_, _, _, .text hnode hread hshow⟩
  | some node =>
    cases hshow : showKeys b w node.readingOrder with
    | error e =>
      refine .inr (.inr ⟨⟨e, ?_⟩, by simp [Showable, hnode, hshow]⟩)
      rw [follow, hnode]
      simp [hshow]
    | ok shown =>
      by_cases hchoices : node.choices = []
      · cases hgoto : node.goto with
        | none => exact .inl ⟨_, _, _, .ends hnode hshow hchoices hgoto⟩
        | some next => exact .inr (.inl ⟨_, _, _, .goto hnode hshow hchoices hgoto⟩)
      · exact .inl ⟨_, _, _, .offers hnode hshow hchoices⟩

/-- A walk runs out of names to look at exactly when there is a goto for each of them. -/
theorem follow_eq_none_iff {hops : Nat} :
    follow b hops w name = none ↔ ∃ w' name' keys, Gotos b hops w name w' name' keys := by
  induction hops generalizing w name with
  | zero => exact ⟨fun _ => ⟨w, name, [], .here w name⟩, fun _ => rfl⟩
  | succ hops ih =>
    constructor
    · intro h
      rcases follow_succ_cases b w name hops with
        ⟨_, _, _, hstops⟩ | ⟨w', next, keys, hgoes⟩ | ⟨⟨_, he⟩, -⟩
      · rw [hstops.follow_eq] at h
        cases h
      · rw [hgoes.follow_eq, Option.map_eq_none_iff] at h
        obtain ⟨w'', last, others, hrest⟩ := ih.mp h
        exact ⟨w'', last, _, .next hgoes hrest⟩
      · rw [he] at h
        cases h
    · rintro ⟨w', name', keys, hgotos⟩
      cases hgotos with
      | next hgoes hrest => rw [hgoes.follow_eq, ih.mpr ⟨_, _, _, hrest⟩, Option.map_none]

/-- A walk goes along the chain and shows what is shown on the way. -/
theorem Gotos.follow_eq {n hops : Nat} {w₁ : World} {name₁ : String} {keys : List String}
    (h : Gotos b n w name w₁ name₁ keys) {node : Option String} {others : List String}
    (hlast : follow b hops w₁ name₁ = some (.ok (w', node, others))) :
    follow b (n + hops) w name = some (.ok (w', node, keys ++ others)) := by
  induction h with
  | here w name => simpa using hlast
  | @next n _ _ _ _ _ _ keys _ hgoes _ ih =>
    have hsucc : n + 1 + hops = n + hops + 1 := by omega
    rw [hsucc, hgoes.follow_eq, ih hlast, List.append_assoc]
    rfl

/-- A walk with a result has followed a chain up to its stop. -/
theorem exists_gotos_of_follow {hops : Nat} {node : Option String} {keys : List String}
    (h : follow b hops w name = some (.ok (w', node, keys))) :
    ∃ n w₁ name₁ shown others, n < hops ∧ Gotos b n w name w₁ name₁ shown ∧
      Stops b w₁ name₁ w' node others ∧ keys = shown ++ others := by
  induction hops generalizing w name keys with
  | zero => cases h
  | succ hops ih =>
    rcases follow_succ_cases b w name hops with
      ⟨_, _, _, hstops⟩ | ⟨w₁, next, first, hgoes⟩ | ⟨⟨_, he⟩, -⟩
    · rw [hstops.follow_eq] at h
      cases h
      exact ⟨0, w, name, [], keys, by omega, .here w name, hstops, rfl⟩
    · rw [hgoes.follow_eq] at h
      obtain ⟨rest, hrest, h⟩ := Option.map_eq_some_iff.mp h
      cases rest with
      | error e => cases h
      | ok r =>
        cases h
        obtain ⟨n, w₂, name₂, shown, others, hn, hgotos, hstops, hkeys⟩ := ih hrest
        exact ⟨n + 1, w₂, name₂, first ++ shown, others, by omega, .next hgoes hgotos, hstops,
          by rw [hkeys, List.append_assoc]⟩
    · rw [he] at h
      cases h

/-- A walk breaks off only where something on the way cannot be shown. -/
theorem exists_not_showable_of_follow {hops : Nat} {e : ScriptError}
    (h : follow b hops w name = some (.error e)) :
    ∃ n w' name' keys, n < hops ∧ Gotos b n w name w' name' keys ∧ ¬ Showable b w' name' := by
  induction hops generalizing w name e with
  | zero => cases h
  | succ hops ih =>
    rcases follow_succ_cases b w name hops with
      ⟨_, _, _, hstops⟩ | ⟨w₁, next, first, hgoes⟩ | ⟨-, hnot⟩
    · rw [hstops.follow_eq] at h
      cases h
    · rw [hgoes.follow_eq] at h
      obtain ⟨rest, hrest, h⟩ := Option.map_eq_some_iff.mp h
      cases rest with
      | ok r => cases h
      | error e =>
        obtain ⟨n, w', name', keys, hn, hgotos, hnot⟩ := ih hrest
        exact ⟨n + 1, w', name', first ++ keys, by omega, .next hgoes hgotos, hnot⟩
    · exact ⟨0, w, name, [], by omega, .here w name, hnot⟩

/-- **How far gotos are followed.** When all that the gotos from a name lead to can be shown,
entering the name fails for too many gotos exactly when the chain takes the whole limit of 32 gotos
or more; it shows the keys of the chain exactly when the chain stops after fewer. -/
theorem enter_follows_gotos (hsmooth : Smooth b w name) :
    (enter b w name = .error { cause := .tooManyGotos name, phase := .play } ↔
      ∃ w' name' keys, Gotos b 32 w name w' name' keys) ∧
    ∀ w' node keys, enter b w name = .ok (w', node, keys) ↔
      ∃ n w₁ name₁ shown others, n < 32 ∧ Gotos b n w name w₁ name₁ shown ∧
        Stops b w₁ name₁ w' node others ∧ keys = shown ++ others := by
  have hnot : ∀ e, follow b gotoLimit w name ≠ some (.error e) := by
    intro e h
    obtain ⟨n, w', name', keys, hn, hgotos, hnot⟩ := exists_not_showable_of_follow h
    exact hnot (hsmooth n w' name' keys hn hgotos)
  constructor
  · rw [enter, ← show gotoLimit = 32 from rfl, ← follow_eq_none_iff]
    cases h : follow b gotoLimit w name with
    | none => simp
    | some r =>
      cases r with
      | error e => exact absurd h (hnot e)
      | ok r => simp
  · intro w' node keys
    rw [enter]
    constructor
    · intro h
      cases hfollow : follow b gotoLimit w name with
      | none =>
        rw [hfollow] at h
        cases h
      | some r =>
        rw [hfollow] at h
        exact exists_gotos_of_follow (hfollow.trans (congrArg some h))
    · rintro ⟨n, w₁, name₁, shown, others, hn, hgotos, hstops, rfl⟩
      obtain ⟨hops, hlimit⟩ : ∃ hops, gotoLimit = n + (hops + 1) := ⟨31 - n, by
        rw [show gotoLimit = 32 from rfl]
        omega⟩
      rw [hlimit, hgotos.follow_eq (hstops.follow_eq hops), Option.getD_some]

end Playthrough

/-! ### A corridor

From each room of a corridor one goes on to the next, up to the last. -/

namespace Corridor

/-- The name of a room. -/
def room (i : Nat) : String := "R" ++ Text.countText i

/-- A room has one line; the last one has no goto. -/
def node (last i : Nat) : DialogueNode :=
  { text := [room i], goto := if i < last then some (room (i + 1)) else none }

/-- The texts of a corridor with a given last room. -/
def book (last : Nat) : TextBook where
  lines := .ofList ((List.range (last + 1)).map fun i => (room i, ["A door."]))
  routes := .ofList ((List.range (last + 1)).map fun i => (room i, node last i))

/-- All rooms of a corridor are there and have their lines. -/
def Built (last : Nat) : Prop :=
  ∀ i ≤ last, (book last).route? (room i) = some (node last i) ∧
    (book last).hasLine (room i) = true

instance (last : Nat) : Decidable (Built last) :=
  inferInstanceAs (Decidable (∀ i ≤ last, _ ∧ _))

/-- A corridor whose last room is number 32 is built. -/
theorem built_32 : Built 32 := by decide +kernel

/-- In a world without counters a line is shown under its key. -/
theorem showKeys_line {b : TextBook} {key : String} (h : b.hasLine key = true) :
    Playthrough.showKeys b .empty [key] = .ok (.empty, [key]) := by
  have hcounter : World.empty.counter? key = none := rfl
  have hread : b.readKey .empty key = .ok { keys := [key] } := by
    rw [TextBook.readKey, TextBook.readSequence?, hcounter]
    cases hline : b.line key with
    | ok line => rfl
    | error e =>
      rw [TextBook.hasLine, hline] at h
      cases h
  simp only [Playthrough.showKeys, hread]
  rfl

open Playthrough in
/-- Going through a corridor shows its rooms one after the other. -/
theorem Built.gotos {last : Nat} (h : Built last) {n i : Nat} (hi : i + n ≤ last) :
    Gotos (book last) n .empty (room i) .empty (room (i + n)) ((List.range' i n).map room) := by
  induction n generalizing i with
  | zero => exact .here _ _
  | succ n ih =>
    obtain ⟨hnode, hline⟩ := h i (by omega)
    have hgoto : (node last i).goto = some (room (i + 1)) := if_pos (by omega)
    have hrest := ih (i := i + 1) (by omega)
    rw [show i + 1 + n = i + (n + 1) by omega] at hrest
    exact .next (.goto hnode (showKeys_line hline) rfl hgoto) hrest

open Playthrough in
/-- It ends in its last room. -/
theorem Built.stops {last : Nat} (h : Built last) :
    Stops (book last) .empty (room last) .empty none [room last] :=
  have hlast := h last (Nat.le_refl last)
  .ends hlast.1 (showKeys_line hlast.2) rfl (if_neg (Nat.lt_irrefl last))

/-- Wherever gotos lead in a corridor, it is a room further on, with nothing changed. -/
theorem Built.of_gotos {last : Nat} (h : Built last) {n i : Nat} (hi : i ≤ last) {w' : World}
    {name' : String} {keys : List String}
    (hgotos : Playthrough.Gotos (book last) n .empty (room i) w' name' keys) :
    i + n ≤ last ∧ w' = .empty ∧ name' = room (i + n) := by
  induction n generalizing i keys with
  | zero =>
    cases hgotos
    exact ⟨hi, rfl, rfl⟩
  | succ n ih =>
    obtain ⟨hnode, hline⟩ := h i hi
    cases hgotos with
    | next hgoes hrest =>
      cases hgoes with
      | goto hnode' hshow _ hgoto =>
        cases hnode.symm.trans hnode'
        cases (showKeys_line hline).symm.trans hshow
        obtain ⟨hlast, hnext⟩ := Option.ite_none_right_eq_some.mp hgoto
        cases hnext
        obtain ⟨hle, hw, hname⟩ := ih (i := i + 1) hlast hrest
        exact ⟨by omega, hw, by rw [hname, show i + 1 + n = i + (n + 1) by omega]⟩

/-- All rooms of a corridor can be shown. -/
theorem Built.smooth {last : Nat} (h : Built last) {i : Nat} (hi : i ≤ last) :
    Playthrough.Smooth (book last) .empty (room i) := by
  intro n w' name' keys _ hgotos
  obtain ⟨hle, rfl, rfl⟩ := h.of_gotos hi hgotos
  obtain ⟨hnode, hline⟩ := h (i + n) hle
  rw [Playthrough.Showable, hnode]
  exact ⟨_, showKeys_line hline⟩

open Playthrough in
/-- After 31 gotos the last room is shown. -/
theorem shown_after_31_gotos :
    Smooth (book 32) .empty (room 1) ∧
      enter (book 32) .empty (room 1) = .ok (.empty, none, (List.range' 1 32).map room) :=
  have hsmooth := built_32.smooth (i := 1) (by decide)
  ⟨hsmooth, ((enter_follows_gotos hsmooth).2 _ _ _).mpr
    ⟨31, .empty, room 32, _, _, by decide, built_32.gotos (by decide), built_32.stops, rfl⟩⟩

open Playthrough in
/-- The limit of 32 gotos is already one too many: the corridor ends after its 32nd goto, and going
through it is refused for following more. -/
theorem refused_after_32_gotos :
    Smooth (book 32) .empty (room 0) ∧
      Gotos (book 32) 32 .empty (room 0) .empty (room 32) ((List.range' 0 32).map room) ∧
      Stops (book 32) .empty (room 32) .empty none [room 32] ∧
      enter (book 32) .empty (room 0) =
        .error { cause := .tooManyGotos (room 0), phase := .play } := by
  have hgotos := built_32.gotos (i := 0) (n := 32) (by decide)
  have hnone : follow (book 32) gotoLimit .empty (room 0) = none :=
    follow_eq_none_iff.mpr ⟨_, _, _, hgotos⟩
  refine ⟨built_32.smooth (by decide), hgotos, built_32.stops, ?_⟩
  rw [enter, hnone]
  rfl

end Corridor

end StoryTape
