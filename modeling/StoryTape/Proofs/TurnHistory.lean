import StoryTape.Proofs.Histories

/-!
# The turns of a playthrough as a stack

Whoever plays a tape may call for any action, any choice and any number of turns back, on offer or
not, and a call may fail at any of its stages. Whatever was called, the frames are a stack: a turn
that succeeds lies on top of it, one that fails leaves it alone, and taking a turn back uncovers
what lay below. So of all calls only the turns that still stand have left a trace.
-/

namespace StoryTape

namespace Playthrough

/-! ### Nodes on offer -/

/-- A frame offers the choices of a node of the texts, if it offers any. -/
def OffersNode (b : TextBook) (f : Frame) : Prop :=
  ∀ name ∈ f.node, ∃ node, b.route? name = some node ∧ node.choices ≠ []

section Texts

variable {b : TextBook} {w w' : World} {name : String} {node : Option String} {keys : List String}

/-- A walk that ends at a node ends at one with choices. -/
theorem choices_of_follow {hops : Nat} (h : follow b hops w name = some (.ok (w', node, keys)))
    {last : String} (hlast : node = some last) :
    ∃ n, b.route? last = some n ∧ n.choices ≠ [] := by
  induction hops generalizing w name keys with
  | zero => simp [follow] at h
  | succ hops ih =>
    rw [follow] at h
    split at h
    · obtain ⟨reading, -, h⟩ := bind_eq_ok_iff.mp (Option.some.inj h)
      obtain ⟨shown, -, h⟩ := bind_eq_ok_iff.mp h
      cases h
      cases hlast
    · next n hroute =>
      split at h
      · cases h
      · split at h
        · next hchoices =>
          cases h
          cases hlast
          refine ⟨n, hroute, fun hnil => ?_⟩
          simp [hnil] at hchoices
        · split at h
          · cases h
            cases hlast
          · obtain ⟨rest, hrest, h⟩ := Option.map_eq_some_iff.mp h
            obtain ⟨⟨w₂, node₂, others⟩, rfl, h⟩ := bind_eq_ok_iff.mp h
            cases h
            exact ih hrest

/-- Entering a name ends at a node with choices or at none. -/
theorem choices_of_enter (h : enter b w name = .ok (w', node, keys)) {last : String}
    (hlast : node = some last) : ∃ n, b.route? last = some n ∧ n.choices ≠ [] := by
  rw [enter] at h
  cases hfollow : follow b gotoLimit w name with
  | none =>
    rw [hfollow] at h
    cases h
  | some result =>
    rw [hfollow] at h
    exact choices_of_follow (hfollow.trans (congrArg some h)) hlast

end Texts

/-- A turn lays one frame on the others, which offers the choices of a node if it offers any. -/
theorem frames_of_advance {p p' : Playthrough} {ops : List Operation} {text : Option String}
    {keys : List String} (h : p.advance ops text = (p', .ok keys)) :
    p'.tape = p.tape ∧ p'.past = p.current :: p.past ∧ OffersNode p.book p'.current := by
  obtain ⟨f, hframe, rfl⟩ := advance_eq_ok_iff.mp h
  obtain ⟨⟨w, scene⟩, -, h⟩ := bind_eq_ok_iff.mp hframe
  cases text with
  | none =>
    cases h
    exact ⟨rfl, rfl, nofun⟩
  | some name =>
    obtain ⟨⟨w', node, shown⟩, henter, h⟩ := bind_eq_ok_iff.mp h
    cases h
    exact ⟨rfl, rfl, fun last hlast => choices_of_enter henter hlast⟩

/-! ### Calls -/

/-- What can be asked of a playthrough. -/
inductive Call where
  /-- Play an action, on offer or not. -/
  | perform (a : Action)
  /-- Take a choice, on offer or not. -/
  | take (step : ChoiceStep)
  /-- Take the last turn back. -/
  | undo

/-- How a call ends. -/
inductive Outcome where
  /-- The turn was taken and shows the lines of these keys. -/
  | shown (keys : List String)
  /-- The turn failed. -/
  | failed (e : ScriptError)
  /-- The last turn was taken back. -/
  | undone
  /-- There was no turn to take back. -/
  | refused

/-- How a turn ends. -/
def Outcome.ofTurn : Checked (List String) → Outcome
  | .ok keys => .shown keys
  | .error e => .failed e

/-- What comes of a call: the playthrough that the next call finds, and how the call ended. -/
def call (p : Playthrough) : Call → Playthrough × Outcome
  | .perform a => (p.perform a).map id .ofTurn
  | .take step => (p.take step).map id .ofTurn
  | .undo =>
    match p.undo? with
    | some p' => (p', .undone)
    | none => (p, .refused)

/-- The playthrough after calls one after the other. -/
def after (p : Playthrough) (calls : List Call) : Playthrough :=
  calls.foldl (fun p c => (p.call c).1) p

/-- A further call finds the playthrough that the others leave. -/
theorem after_concat (p : Playthrough) (calls : List Call) (c : Call) :
    p.after (calls ++ [c]) = ((p.after calls).call c).1 := by
  rw [after, List.foldl_append]
  rfl

/-- What a call does to the frames, told by how it ends. -/
inductive Moves (p : Playthrough) : Playthrough → Outcome → Prop
  /-- A frame is laid on top. -/
  | shown {p' : Playthrough} (keys : List String) (tape : p'.tape = p.tape)
      (past : p'.past = p.current :: p.past) (node : OffersNode p.book p'.current) :
      Moves p p' (.shown keys)
  /-- Nothing changes. -/
  | failed (e : ScriptError) : Moves p p (.failed e)
  /-- The top frame is taken off. -/
  | undone {p' : Playthrough} (tape : p'.tape = p.tape) (past : p.past = p'.current :: p'.past) :
      Moves p p' .undone
  /-- There is but one frame, and it stays. -/
  | refused (past : p.past = []) : Moves p p .refused

/-- A turn lays a frame on the others, or it fails and changes nothing. -/
theorem moves_advance (p : Playthrough) (ops : List Operation) (text : Option String) :
    p.Moves (p.advance ops text).1 (.ofTurn (p.advance ops text).2) := by
  rcases hturn : p.advance ops text with ⟨p', e | keys⟩
  · have hkept := advance_eq_error hturn
    exact hkept ▸ .failed e
  · obtain ⟨htape, hpast, hnode⟩ := frames_of_advance hturn
    exact .shown keys htape hpast hnode

/-- Every call moves the frames in one of four ways. -/
theorem moves_call (p : Playthrough) (c : Call) : p.Moves (p.call c).1 (p.call c).2 := by
  cases c with
  | perform a => exact p.moves_advance a.operations a.text
  | take step => exact p.moves_advance step.operations (some step.next)
  | undo =>
    rw [call]
    split
    · next p' hundo =>
      rw [undo?] at hundo
      split at hundo
      · cases hundo
      · next last past hpast =>
        cases hundo
        exact .undone rfl hpast
    · next hundo =>
      rw [undo?] at hundo
      split at hundo
      · next hpast => exact .refused hpast
      · cases hundo

/-- Playthroughs with the same tape and the same frames are the same. -/
theorem ext_frames {p q : Playthrough} (htape : p.tape = q.tape)
    (hframes : p.current :: p.past = q.current :: q.past) : p = q := by
  obtain ⟨tape, current, past⟩ := p
  obtain ⟨tape', current', past'⟩ := q
  obtain ⟨rfl, rfl⟩ := List.cons.inj hframes
  cases htape
  rfl

section Moves

variable {p p' q : Playthrough} {o : Outcome} {keys : List String}

/-- No call changes the tape. -/
theorem Moves.tape_eq (h : p.Moves p' o) : p'.tape = p.tape := by
  cases h with
  | shown _ htape _ _ => exact htape
  | failed _ => rfl
  | undone htape _ => exact htape
  | refused _ => rfl

/-- A call that fails changes nothing. -/
theorem Moves.eq_of_failed {e : ScriptError} (h : p.Moves p' (.failed e)) : p' = p := by
  cases h
  rfl

/-- A turn that is shown is counted. -/
theorem Moves.turn_shown (h : p.Moves p' (.shown keys)) : p'.turn = p.turn + 1 := by
  cases h with
  | shown _ _ hpast _ => exact congrArg List.length hpast

/-- A turn that succeeded is taken back to where it was taken. -/
theorem Moves.undo_shown (h : p.Moves p' (.shown keys)) : p'.call .undo = (p, .undone) := by
  cases h with
  | shown _ htape hpast _ =>
    have hundo : p'.undo? = some p := by
      rw [undo?, hpast]
      exact congrArg some (ext_frames htape rfl)
    rw [call, hundo]

/-- A call adds one turn at most. -/
theorem Moves.turn_le (h : p.Moves p' o) : p'.turn ≤ p.turn + 1 := by
  rw [turn, turn]
  cases h with
  | shown _ _ hpast _ => exact Nat.le_of_eq (congrArg List.length hpast)
  | failed _ => exact Nat.le_succ _
  | undone _ hpast =>
    rw [hpast, List.length_cons]
    omega
  | refused _ => exact Nat.le_succ _

/-- Only a turn that succeeds leads to more turns. -/
theorem Moves.shown_of_turn_lt (h : p.Moves p' o) (hlt : p.turn < p'.turn) :
    p'.tape = p.tape ∧ p'.past = p.current :: p.past := by
  rw [turn, turn] at hlt
  cases h with
  | shown _ htape hpast _ => exact ⟨htape, hpast⟩
  | failed _ => exact absurd hlt (Nat.lt_irrefl _)
  | undone _ hpast =>
    rw [hpast, List.length_cons] at hlt
    omega
  | refused _ => exact absurd hlt (Nat.lt_irrefl _)

/-- A playthrough without turns refuses to take one back, and no other does. -/
theorem undo_refused_iff : (p.call .undo).2 = .refused ↔ p.turn = 0 := by
  rw [turn, List.length_eq_zero_iff, call, undo?]
  cases p.past <;> simp

/-- The first frame of all stays below all others. -/
theorem Moves.getLast? (h : p.Moves p' o) :
    (p'.current :: p'.past).getLast? = (p.current :: p.past).getLast? := by
  cases h with
  | shown _ _ hpast _ => rw [hpast, List.getLast?_cons_cons]
  | failed _ => rfl
  | undone _ hpast => rw [hpast, List.getLast?_cons_cons]
  | refused _ => rfl

/-- After a call every frame offers the choices of a node, if any, as before it. -/
theorem Moves.offersNode {b : TextBook} (h : p.Moves p' o) (hbook : p.book = b)
    (hp : ∀ f ∈ p.current :: p.past, OffersNode b f) :
    ∀ f ∈ p'.current :: p'.past, OffersNode b f := by
  cases h with
  | shown _ _ hpast hnode =>
    rw [hpast]
    exact List.forall_mem_cons.mpr ⟨hbook ▸ hnode, hp⟩
  | failed _ => exact hp
  | undone _ hpast =>
    rw [hpast] at hp
    exact fun f hf => hp f (List.mem_cons_of_mem _ hf)
  | refused _ => exact hp

end Moves

/-! ### Runs of calls -/

section Runs

variable {p₀ : Playthrough} {t : Tape} {scene : Option String}

/-- There are no more turns than calls. -/
theorem turn_after_le (p₀ : Playthrough) (calls : List Call) :
    (p₀.after calls).turn ≤ p₀.turn + calls.length := by
  induction calls using List.reverseRecOn with
  | nil => exact Nat.le_refl _
  | append_singleton calls c ih =>
    rw [after_concat, List.length_append, List.length_singleton]
    have hstep := ((p₀.after calls).moves_call c).turn_le
    omega

/-- **Only turns that still stand leave a trace.** Of any calls, as many as there are turns lead to
the same playthrough by themselves. -/
theorem exists_standing (hstart : p₀.past = []) (calls : List Call) :
    ∃ turns, turns.Sublist calls ∧ turns.length = (p₀.after calls).turn ∧
      p₀.after turns = p₀.after calls := by
  have hzero : p₀.turn = 0 := List.length_eq_zero_iff.mpr hstart
  induction calls using List.reverseRecOn with
  | nil => exact ⟨[], List.Sublist.refl [], hzero.symm, rfl⟩
  | append_singleton calls c ih =>
    obtain ⟨turns, hsub, hlength, hafter⟩ := ih
    have hskip : turns.Sublist (calls ++ [c]) := hsub.trans (List.sublist_append_left calls [c])
    rw [after_concat]
    have hmoves := (p₀.after calls).moves_call c
    rcases hcall : (p₀.after calls).call c with ⟨p', o⟩
    rw [hcall] at hmoves
    cases hmoves with
    | shown keys _ hpast _ =>
      refine ⟨turns ++ [c], hsub.append (List.Sublist.refl [c]), ?_, ?_⟩
      · rw [List.length_append, List.length_singleton, hlength, turn, turn, hpast, List.length_cons]
      · rw [after_concat, hafter, hcall]
    | failed _ => exact ⟨turns, hskip, hlength, hafter⟩
    | undone htape hpast =>
      -- The last of the standing turns is the one that is taken back.
      have hne : turns ≠ [] := by
        rintro rfl
        rw [turn, hpast] at hlength
        cases hlength
      obtain ⟨front, last, rfl⟩ := (List.eq_nil_or_concat turns).resolve_left hne
      rw [List.concat_eq_append] at hskip hlength hafter
      have hbound := turn_after_le p₀ front
      have hlast := (p₀.after front).moves_call last
      rw [after_concat] at hafter
      rw [hafter] at hlast
      rw [List.length_append, List.length_singleton] at hlength
      obtain ⟨htape', hpast'⟩ := hlast.shown_of_turn_lt (by omega)
      have hfront : p₀.after front = p' :=
        ext_frames (htape'.symm.trans htape.symm) (hpast'.symm.trans hpast)
      have hturn : (p₀.after calls).turn = p'.turn + 1 := congrArg List.length hpast
      rw [hturn] at hlength
      exact ⟨front, (List.sublist_append_left front [last]).trans hskip, Nat.succ.inj hlength,
        hfront⟩
    | refused _ => exact ⟨turns, hskip, hlength, hafter⟩

/-- What holds of a playthrough that calls have led to: its first frame is the one it started in,
and every frame that offers choices offers those of a node. -/
structure Stacked (p₀ p : Playthrough) : Prop where
  tape : p.tape = p₀.tape
  first : (p.current :: p.past).getLast? = some p₀.current
  nodes : ∀ f ∈ p.current :: p.past, OffersNode p₀.book f

/-- Where a playthrough starts nothing is offered and nothing is past. -/
theorem stacked_self (hpast : p₀.past = []) (hnode : p₀.current.node = none) : Stacked p₀ p₀ := by
  refine ⟨rfl, by rw [hpast, List.getLast?_singleton], fun f hf => ?_⟩
  rw [hpast, List.mem_singleton] at hf
  subst hf
  rw [OffersNode, hnode]
  exact nofun

/-- A call leads on from where a playthrough started. -/
theorem Stacked.call {p : Playthrough} (h : Stacked p₀ p) (c : Call) :
    Stacked p₀ (p.call c).1 := by
  have hmoves := p.moves_call c
  have hbook : p.book = p₀.book := congrArg Tape.text h.tape
  exact ⟨hmoves.tape_eq.trans h.tape, hmoves.getLast?.trans h.first,
    hmoves.offersNode hbook h.nodes⟩

/-- Calls lead on from where a playthrough started. -/
theorem stacked_after (hp₀ : Stacked p₀ p₀) (calls : List Call) : Stacked p₀ (p₀.after calls) := by
  induction calls using List.reverseRecOn with
  | nil => exact hp₀
  | append_singleton calls c ih =>
    rw [after_concat]
    exact ih.call c

/-- With no turn left there is only the first frame. -/
theorem Stacked.eq_of_turn {p : Playthrough} (h : Stacked p₀ p) (hstart : p₀.past = [])
    (hturn : p.turn = 0) : p = p₀ := by
  have hpast : p.past = [] := List.length_eq_zero_iff.mp hturn
  have hfirst := h.first
  rw [hpast, List.getLast?_singleton] at hfirst
  exact ext_frames h.tape (by rw [hpast, hstart, Option.some.inj hfirst])

/-- All turns taken back, one after the other, lead to the start. -/
theorem Stacked.after_undo {p : Playthrough} (h : Stacked p₀ p) (hstart : p₀.past = []) {n : Nat}
    (hturn : p.turn = n) : p.after (List.replicate n .undo) = p₀ := by
  induction n generalizing p with
  | zero => exact h.eq_of_turn hstart hturn
  | succ n ih =>
    have hmoves := p.moves_call .undo
    have hnext := h.call .undo
    rw [List.replicate_succ]
    change (p.call .undo).1.after (List.replicate n .undo) = p₀
    rw [turn] at hturn
    refine ih hnext ?_
    cases hpast : p.past with
    | nil =>
      rw [hpast] at hturn
      cases hturn
    | cons last past =>
      rw [hpast, List.length_cons] at hturn
      simp only [Playthrough.call, undo?, hpast, turn]
      exact Nat.succ.inj hturn

/-- **The turns of a playthrough are a faithful stack.** A tape is started, and any actions, choices
and turns back are called for, on offer or not, some of which fail. A turn that fails then changes
nothing; one that succeeds is one turn more, and is taken back to exactly where it was taken. Only
where no turn was played is taking one back refused, and there everything is as it was at the
start, which taking back every turn leads to. Every frame that offers choices offers those of a
node of the tape. And nothing is left of the calls but the turns that still stand. -/
theorem turns_are_stacked (hstart : Playthrough.start t scene = .ok p₀) (calls : List Call)
    {p : Playthrough} (hp : p₀.after calls = p) :
    (∀ c e, (p.call c).2 = .failed e → (p.call c).1 = p) ∧
    (∀ c keys, (p.call c).2 = .shown keys →
      (p.call c).1.turn = p.turn + 1 ∧ (p.call c).1.call .undo = (p, .undone)) ∧
    ((p.call .undo).2 = .refused ↔ p.turn = 0) ∧
    (p.turn = 0 → p = p₀) ∧
    p.after (List.replicate p.turn .undo) = p₀ ∧
    (∀ f ∈ p.current :: p.past, ∀ name ∈ f.node,
      ∃ node, t.text.route? name = some node ∧ node.choices ≠ []) ∧
    ∃ turns, turns.Sublist calls ∧ turns.length = p.turn ∧ p₀.after turns = p := by
  obtain ⟨name, -, rfl⟩ := start_eq_ok hstart
  have hstacked := hp ▸ stacked_after (stacked_self rfl rfl) calls
  refine ⟨fun c e hfailed => ?_, fun c keys hshown => ?_, undo_refused_iff,
    hstacked.eq_of_turn rfl, hstacked.after_undo rfl rfl, hstacked.nodes,
    hp ▸ exists_standing rfl calls⟩
  · exact (hfailed ▸ p.moves_call c).eq_of_failed
  · have hmoves := hshown ▸ p.moves_call c
    exact ⟨hmoves.turn_shown, hmoves.undo_shown⟩

end Runs

end Playthrough

/-! ### Turns in the hall -/

namespace Hall

/-- The hall before anybody was greeted. -/
def opened : Playthrough := { tape, current := opening }

/-- A choice that leads to no node and no text. -/
def lost : ChoiceStep := ⟨"NOWHERE", []⟩

/-- The queen is greeted, nowhere is looked for in vain, and a bow is made and taken back. -/
def calls : List Playthrough.Call :=
  [.perform greet, .take lost, .take ⟨"TALK-1", []⟩, .undo]

end Hall

/-- After all that only the greeting stands: looking for nowhere again changes nothing, a bow can
still be taken back, and so can the greeting. -/
theorem greeting_alone_stands :
    Playthrough.start Hall.tape none = .ok Hall.opened ∧
      Hall.opened.after Hall.calls = Hall.greeted ∧
      (Hall.greeted.call (.take Hall.lost)).1 = Hall.greeted ∧
      (Hall.greeted.call (.take ⟨"TALK-1", []⟩)).1.call .undo = (Hall.greeted, .undone) ∧
      Hall.greeted.after (List.replicate 1 .undo) = Hall.opened := by
  have hstart : Playthrough.start Hall.tape none = .ok Hall.opened := by rfl
  have hafter : Hall.opened.after Hall.calls = Hall.greeted := by rfl
  have hlost : (Hall.greeted.call (.take Hall.lost)).2 =
      .failed { cause := .noText "NOWHERE", phase := .text } := by rfl
  have hbow : (Hall.greeted.call (.take ⟨"TALK-1", []⟩)).2 = .shown ["HELLO_1"] := by rfl
  obtain ⟨hfails, hturns, -, -, hback, -⟩ := Playthrough.turns_are_stacked hstart Hall.calls hafter
  exact ⟨hstart, hafter, hfails _ _ hlost, (hturns _ _ hbow).2, hback⟩

end StoryTape
