import StoryTape.Play.Playthrough
import StoryTape.Tape.Problem
import StoryTape.Proofs.Acceptance
import StoryTape.Proofs.LineKeys
import StoryTape.Proofs.RuleExpansion

/-!
# Tapes without problems

The problems of a tape are found without playing it: names are looked up where they are written.
Playing looks names up where a walk leads, through rules made from templates, choices, gotos and
the counters of sequences. Here a tape without problems is shown to hold every text that any
playthrough of it asks for.
-/

namespace StoryTape

/-- A result that is no text failure; if there is one, it satisfies the predicate. -/
def Checked.Legible {α : Type} (P : α → Prop) : Checked α → Prop
  | .ok a => P a
  | .error e => e.phase ≠ .text

namespace Checked

variable {α β : Type} {P : α → Prop} {Q : β → Prop}

/-- A run whose steps meet no text failure meets none. -/
theorem legible_bind {r : Checked α} {f : α → Checked β} (hr : r.Legible P)
    (hf : ∀ a, P a → (f a).Legible Q) : Legible Q (r >>= f) := by
  cases r with
  | error e => exact hr
  | ok a => exact hf a hr

end Checked

namespace World

/-- Applying an operation reads no text. -/
theorem applyOne_legible (w : World) (scene : String) (op : Operation) :
    (w.applyOne scene op).Legible fun _ => True := by
  cases op with
  | removeTag tag location =>
    simp only [applyOne]
    split
    · exact (nofun : Phase.play ≠ .text)
    · trivial
  | appendTag tag location =>
    simp only [applyOne]
    cases Tag.parse tag with
    | error e => exact (nofun : Phase.play ≠ .text)
    | ok tag => trivial
  | _ => trivial

/-- Operations fail on the world, never on a text. -/
theorem applyInScene_legible (w : World) (scene : String) (ops : List Operation) :
    (w.applyInScene scene ops).Legible fun _ => True := by
  induction ops generalizing w scene with
  | nil => trivial
  | cons op ops ih =>
    exact Checked.legible_bind (w.applyOne_legible scene op) fun r _ => ih r.1 r.2

/-- Applying operations reads no text. -/
theorem apply_legible (w : World) (ops : List Operation) :
    (w.apply ops).Legible fun _ => True := by
  have h := w.applyInScene_legible "" ops
  rw [apply]
  cases hrun : w.applyInScene "" ops with
  | error e => rw [hrun] at h; exact h
  | ok r => trivial

end World

namespace TextBook

/-- Whether a name is that of a node or has a line. -/
def Knows (b : TextBook) (name : String) : Prop :=
  (b.route? name).isSome = true ∨ b.hasLine name = true

/-- Whether the nodes ask only for lines and names that the texts hold. -/
structure Complete (b : TextBook) : Prop where
  /-- The keys of a node have lines. -/
  text : ∀ {name node}, b.route? name = some node → ∀ key ∈ node.text, b.hasLine key = true
  /-- The labels of its choices have lines. -/
  label : ∀ {name node}, b.route? name = some node → ∀ c ∈ node.choices, b.hasLine c.label = true
  /-- The names its choices lead to are known. -/
  next : ∀ {name node}, b.route? name = some node → ∀ c ∈ node.choices, b.Knows c.next
  /-- The name of its goto is known. -/
  goto : ∀ {name node}, b.route? name = some node → ∀ next ∈ node.goto, b.Knows next

/-- Where the check of a key finds nothing wrong, the key has a line. -/
theorem hasLine_of_checkText {b : TextBook} {place key : String}
    (h : b.checkText place key = []) : b.hasLine key = true := by
  rw [checkText] at h
  split at h
  · next hok =>
    rcases Bool.or_eq_true_iff.mp hok with hsignal | hline
    · exact hasLine_of_isSignal hsignal
    · exact hline
  · simp at h

/-- Where the check of a target finds nothing wrong, the target is known. -/
theorem knows_of_checkTarget {b : TextBook} {place name : String}
    (h : b.checkTarget place name = []) : b.Knows name := by
  rw [checkTarget] at h
  split at h
  · next hok => exact Bool.or_eq_true_iff.mp hok
  · simp at h

/-- Where the check of a rule finds nothing wrong, its text is known. -/
theorem knows_of_checkRule {b : TextBook} {r : Rule} {number : Nat}
    (h : b.checkRule r number = []) : ∀ key ∈ r.text, b.Knows key := by
  intro key hkey
  rw [Option.mem_def] at hkey
  simp only [checkRule, hkey] at h
  split at h
  · next hroute => exact .inl hroute
  · exact .inr (hasLine_of_checkText h)

/-- A node that is found is one of the nodes. -/
theorem mem_entries_of_route? {b : TextBook} {name : String} {node : DialogueNode}
    (h : b.route? name = some node) : (name, node) ∈ b.routes.entries := by
  obtain ⟨entry, hfind, rfl⟩ := Option.map_eq_some_iff.mp h
  have hname : entry.1 = name := by simpa using List.find?_some hfind
  exact hname ▸ List.mem_of_find?_eq_some hfind

end TextBook

/-- A tape without problems holds what its nodes and rules ask for. -/
theorem Tape.complete_of_problems {t : Tape} (h : t.problems = []) :
    t.text.Complete ∧ ∀ r ∈ t.rules, ∀ key ∈ r.text, t.text.Knows key := by
  obtain ⟨⟨hrules, hnodes⟩, -⟩ :
      (_ ∧ _) ∧ _ := by simpa only [problems, List.append_eq_nil_iff] using h
  rw [List.flatMap_eq_nil_iff] at hrules hnodes
  have hnode : ∀ {name node}, t.text.route? name = some node →
      t.text.checkNode (name, node) = [] := fun hroute =>
    hnodes _ (TextBook.mem_entries_of_route? hroute)
  simp only [TextBook.checkNode, TextBook.checkChoice, List.append_eq_nil_iff,
    List.flatMap_eq_nil_iff, Option.mem_toList] at hnode
  refine ⟨⟨?_, ?_, ?_, ?_⟩, ?_⟩
  · exact fun hroute key hkey => TextBook.hasLine_of_checkText ((hnode hroute).1.1 key hkey)
  · exact fun hroute c hc => TextBook.hasLine_of_checkText ((hnode hroute).1.2 c hc).1
  · exact fun hroute c hc => TextBook.knows_of_checkTarget ((hnode hroute).1.2 c hc).2
  · exact fun hroute next hnext => TextBook.knows_of_checkTarget ((hnode hroute).2 next hnext)
  · intro r hr
    obtain ⟨i, hi⟩ := List.getElem?_of_mem hr
    exact TextBook.knows_of_checkRule (hrules (r, i) (List.mk_mem_zipIdx_iff_getElem?.mpr hi))

namespace Playthrough

variable {b : TextBook}

/-- Showing a reading whose keys have lines reads no missing text. -/
theorem showReading_legible {w : World} {reading : Reading} (h : b.Shows reading.keys) :
    (showReading w reading).Legible fun r => b.Shows r.2 :=
  Checked.legible_bind (w.apply_legible reading.operations) fun _ _ => h

/-- A key with a line can be read, and what is read can be shown. -/
theorem readKey_legible (hfits : b.Fits) (w : World) {key : String}
    (h : b.hasLine key = true) : (b.readKey w key).Legible fun reading => b.Shows reading.keys := by
  obtain ⟨reading, hread, hshows⟩ := TextBook.readKey_shows hfits w h
  rw [hread]
  exact hshows

/-- A name with a line can be read, and what is read can be shown. -/
theorem readName_legible (hfits : b.Fits) (w : World) {name : String}
    (h : b.hasLine name = true) :
    (b.readName w name).Legible fun reading => b.Shows reading.keys := by
  obtain ⟨reading, hread, hshows⟩ := TextBook.readName_shows hfits w h
  rw [hread]
  exact hshows

/-- Keys with lines can all be shown, in whatever world. -/
theorem showKeys_legible (hfits : b.Fits) (w : World) {keys : List String}
    (h : ∀ key ∈ keys, b.hasLine key = true) :
    (showKeys b w keys).Legible fun r => b.Shows r.2 := by
  induction keys generalizing w with
  | nil => exact fun key hkey => absurd hkey List.not_mem_nil
  | cons key keys ih =>
    obtain ⟨hkey, hkeys⟩ := List.forall_mem_cons.mp h
    refine Checked.legible_bind (readKey_legible hfits w hkey) fun reading hreading => ?_
    refine Checked.legible_bind (showReading_legible hreading) fun first hfirst => ?_
    refine Checked.legible_bind (ih first.1 hkeys) fun others hothers => ?_
    exact List.forall_mem_append.mpr ⟨hfirst, hothers⟩

/-- However many gotos a walk follows, it stays among names that are known. -/
theorem follow_legible (hfits : b.Fits) (hb : b.Complete) {hops : Nat} {w : World} {name : String}
    (hname : b.Knows name) {r : Checked (World × Option String × List String)}
    (h : follow b hops w name = some r) : r.Legible fun r => b.Shows r.2.2 := by
  induction hops generalizing w name r with
  | zero => simp [follow] at h
  | succ hops ih =>
    rw [follow] at h
    split at h
    · next hroute =>
      obtain rfl := Option.some.inj h
      have hline : b.hasLine name = true := by simpa [TextBook.Knows, hroute] using hname
      refine Checked.legible_bind (readName_legible hfits w hline) fun reading hreading => ?_
      exact Checked.legible_bind (showReading_legible hreading) fun _ hkeys => hkeys
    · next node hroute =>
      have hnode : (showKeys b w node.readingOrder).Legible fun r => b.Shows r.2 :=
        showKeys_legible hfits w fun key hkey => hb.text hroute key (List.mem_reverse.mp hkey)
      split at h
      · next e hshow =>
        obtain rfl := Option.some.inj h
        rw [hshow] at hnode
        exact hnode
      · next w' keys hshow =>
        rw [hshow] at hnode
        split at h
        · exact Option.some.inj h ▸ hnode
        · split at h
          · exact Option.some.inj h ▸ hnode
          · next next hgoto =>
            obtain ⟨rest, hrest, rfl⟩ := Option.map_eq_some_iff.mp h
            refine Checked.legible_bind (ih (hb.goto hroute next hgoto) hrest) fun r hr => ?_
            exact List.forall_mem_append.mpr ⟨hnode, hr⟩

/-- A known name can be entered without a text failure, and every key shown has a line. -/
theorem enter_legible (hfits : b.Fits) (hb : b.Complete) (w : World) {name : String}
    (hname : b.Knows name) : (enter b w name).Legible fun r => b.Shows r.2.2 := by
  rw [enter]
  cases h : follow b gotoLimit w name with
  | none => exact (nofun : Phase.play ≠ .text)
  | some r => exact follow_legible hfits hb hname h

/-- A turn that enters a known name shows only keys that have lines. -/
theorem nextFrame_legible {p : Playthrough} (hfits : p.book.Fits) (hb : p.book.Complete)
    (ops : List Operation) {text : Option String} (htext : ∀ name ∈ text, p.book.Knows name) :
    (p.nextFrame ops text).Legible fun r => p.book.Shows r.2 := by
  refine Checked.legible_bind (p.world.applyInScene_legible p.scene ops) fun r _ => ?_
  cases text with
  | none => exact fun key hkey => absurd hkey List.not_mem_nil
  | some name =>
    exact Checked.legible_bind (enter_legible hfits hb r.1 (htext name rfl)) fun _ hkeys => hkeys

/-- The playthroughs of a tape: it is started somewhere, then actions and choices on offer are
taken and turns taken back, in any order. A step that fails changes nothing. -/
inductive Reached (t : Tape) : Playthrough → Prop
  | start {scene : Option String} {p : Playthrough} (h : Playthrough.start t scene = .ok p) :
      Reached t p
  | perform {p p' : Playthrough} {actions : ActionList} {a : Action} {keys : List String}
      (hp : Reached t p) (hactions : p.actions = .ok actions) (ha : a ∈ actions.entries)
      (h : p.perform a = (p', .ok keys)) : Reached t p'
  | take {p p' : Playthrough} {i : Nat} {step : ChoiceStep} {keys : List String}
      (hp : Reached t p) (hstep : (i, step) ∈ p.choices) (h : p.take step = (p', .ok keys)) :
      Reached t p'
  | undo {p p' : Playthrough} (hp : Reached t p) (h : p.undo? = some p') : Reached t p'

/-- A turn keeps the tape. -/
theorem tape_of_advance {p p' : Playthrough} {ops : List Operation} {text : Option String}
    {keys : List String} (h : p.advance ops text = (p', .ok keys)) : p'.tape = p.tape := by
  obtain ⟨f, -, rfl⟩ := advance_eq_ok_iff.mp h
  rfl

/-- A playthrough never changes its tape. -/
theorem Reached.tape_eq {t : Tape} {p : Playthrough} (hp : Reached t p) : p.tape = t := by
  induction hp with
  | start h =>
    obtain ⟨_, -, h⟩ := bind_eq_ok_iff.mp h
    rw [pure_eq_ok_iff] at h
    exact h ▸ rfl
  | perform _ _ _ h ih => exact (tape_of_advance h).trans ih
  | take _ _ h ih => exact (tape_of_advance h).trans ih
  | undo _ h ih =>
    rw [undo?] at h
    split at h
    · simp at h
    · exact Option.some.inj h ▸ ih

/-- An action on offer shows the text of one of the rules. -/
theorem exists_rule_of_mem_actions {p : Playthrough} {actions : ActionList}
    (h : p.actions = .ok actions) {a : Action} (ha : a ∈ actions.entries) :
    ∃ r ∈ p.tape.rules, a.text = r.text := by
  obtain ⟨book, hbook, r', hr', accepted, haccept, htext, -⟩ :=
    exists_accepted_of_mem_offeredActions h ha
  obtain ⟨r, hr, hstands⟩ := exists_rule_of_mem_expandRules hbook hr'
  obtain ⟨phases, rfl⟩ := Rule.accept_eq_ok_some_iff.mp haccept
  exact ⟨r, hr, htext.trans hstands.text⟩

/-- The node a playthrough stands at is found under its name. -/
theorem route?_of_node? {p : Playthrough} {name : String} {node : DialogueNode}
    (h : p.node? = some (name, node)) : p.book.route? name = some node := by
  obtain ⟨_, -, hlookup⟩ := Option.bind_eq_some_iff.mp h
  obtain ⟨_, hroute, hname⟩ := Option.bind_eq_some_iff.mp hlookup
  obtain ⟨rfl, rfl⟩ := Prod.mk.inj (Option.some.inj hname)
  exact hroute

/-- A choice on offer leads where a choice of the current node does. -/
theorem exists_choice_of_mem_choices {p : Playthrough} {i : Nat} {step : ChoiceStep}
    (h : (i, step) ∈ p.choices) :
    ∃ name node, p.book.route? name = some node ∧ ∃ c ∈ node.choices, step.next = c.next := by
  rw [choices] at h
  split at h
  · simp at h
  · next name node hnode =>
    obtain ⟨⟨c, j⟩, hc, hmap⟩ := List.mem_filterMap.mp h
    obtain ⟨step', haccept, hstep⟩ := Option.map_eq_some_iff.mp hmap
    obtain ⟨-, rfl⟩ := Prod.mk.inj hstep
    obtain ⟨phases, rfl⟩ := Choice.accept_eq_some_iff.mp haccept
    have hmem : c ∈ node.choices := List.mem_of_getElem? (List.mk_mem_zipIdx_iff_getElem?.mp hc)
    exact ⟨name, node, route?_of_node? hnode, c, hmem, rfl⟩

/-- The label of a choice can be shown in every world. -/
theorem text_isOk {p : Playthrough} (hfits : p.book.Fits) {key : String}
    (hkey : p.book.hasLine key = true) : ∃ line, p.text key = .ok line := by
  obtain ⟨reading, hread, hshows⟩ := TextBook.readKey_shows hfits p.world hkey
  have hshown : p.book.hasLine (reading.keys.head?.getD key) = true := by
    cases hkeys : reading.keys with
    | nil => exact hkey
    | cons first others => exact hshows first (by rw [hkeys]; exact List.mem_cons_self)
  obtain ⟨line, hline⟩ := TextBook.hasLine_eq_true_iff.mp hshown
  exact ⟨line, bind_eq_ok_iff.mpr ⟨reading, hread, hline⟩⟩

/-- Whether a turn does not fail on a text, and every key it shows has a line afterwards. -/
def TurnReads (turn : Playthrough × Checked (List String)) : Prop :=
  turn.2.Legible fun keys => ∀ key ∈ keys, ∃ line, turn.1.line key = .ok line

/-- A turn whose text is known meets no text failure. -/
theorem advance_turnReads {p : Playthrough} (hfits : p.book.Fits) (hb : p.book.Complete)
    (ops : List Operation) {text : Option String} (htext : ∀ name ∈ text, p.book.Knows name) :
    TurnReads (p.advance ops text) := by
  have h := nextFrame_legible hfits hb ops htext
  rw [TurnReads, advance]
  cases hframe : p.nextFrame ops text with
  | error e =>
    rw [hframe] at h
    exact h
  | ok r =>
    rw [hframe] at h
    exact fun key hkey => TextBook.hasLine_eq_true_iff.mp (h key hkey)

end Playthrough

/-- **A tape without problems never fails on a text.** Wherever actions, choices and turns taken
back have led, no action or choice on offer fails for want of a text, every key it shows can be
shown, and so can the label of every choice of the current node, whatever counters the world
holds. -/
theorem clean_tape_reads {t : Tape} (hfits : t.text.Fits) (hclean : t.problems = [])
    {p : Playthrough} (hp : Playthrough.Reached t p) :
    (∀ actions, p.actions = .ok actions → ∀ a ∈ actions.entries,
      Playthrough.TurnReads (p.perform a)) ∧
    (∀ i step, (i, step) ∈ p.choices → Playthrough.TurnReads (p.take step)) ∧
    (∀ name node, p.node? = some (name, node) → ∀ c ∈ node.choices, ∀ world : World,
      ∃ line, Playthrough.text { p with current := { p.current with world } } c.label
        = .ok line) := by
  obtain ⟨hcomplete, hrules⟩ := Tape.complete_of_problems hclean
  obtain rfl := hp.tape_eq
  refine ⟨fun actions hactions a ha => ?_, fun i step hstep => ?_, ?_⟩
  · obtain ⟨r, hr, htext⟩ := Playthrough.exists_rule_of_mem_actions hactions ha
    exact Playthrough.advance_turnReads hfits hcomplete _ (htext ▸ hrules r hr)
  · obtain ⟨name, node, hroute, c, hc, hnext⟩ := Playthrough.exists_choice_of_mem_choices hstep
    refine Playthrough.advance_turnReads hfits hcomplete _ fun next hmem => ?_
    obtain rfl := Option.mem_some.mp hmem
    exact hnext ▸ hcomplete.next hroute c hc
  · intro name node hnode c hc world
    have hlabel := hcomplete.label (Playthrough.route?_of_node? hnode) c hc
    exact Playthrough.text_isOk (p := { p with current := { p.current with world } }) hfits hlabel

/-! ### A tape to look at

In the hall a queen is greeted: the greeting is a loop of two lines, the bow a choice that leads
back to it through a goto. -/

namespace Hall

def queen : Tag := ⟨"queen", ⟨.plain, "queen", none, .unset⟩, by decide, by rfl⟩
def heldQueen : Tag := ⟨"?queen", ⟨.required, "queen", none, .unset⟩, by decide, by rfl⟩
def firstHello : Tag := ⟨"HELLO_0", ⟨.plain, "HELLO_0", none, .ofValue 0⟩, by decide, by rfl⟩
def lastHello : Tag := ⟨"HELLO_1", ⟨.plain, "HELLO_1", none, .ofValue 1⟩, by decide, by rfl⟩

/-- The choice that ends the talk. -/
def bow : Choice := { label := "TALK-1S", next := "TALK-1" }

/-- The greeting and what it leads to. -/
def book : TextBook :=
  { lines := .ofList [("HELLO", ["Hello.", "You again?"]), ("TALK-1S", ["Bow"])]
    routes := .ofList [("TALK", { text := ["HELLO"], choices := [bow] }),
      ("TALK-1", { text := [], goto := some "HELLO" })] }

/-- A queen in the hall who can be greeted. -/
def tape : Tape :=
  { label := "HALL", world := ⟨[⟨"HOME", .singleton queen⟩, ⟨"LOOP", .singleton firstHello⟩]⟩,
    rules := [{ target := heldQueen, text := some "TALK" }], text := book }

/-- The frame the tape starts in. -/
def opening : Frame := { world := tape.world, scene := "HOME" }

/-- The queen has been greeted and waits for a bow. -/
def greeted : Playthrough :=
  { tape, past := [opening],
    current := { world := ⟨[⟨"HOME", .singleton queen⟩, ⟨"LOOP", .singleton lastHello⟩]⟩,
                 scene := "HOME", node := some "TALK" } }

/-- The action that starts the talk. -/
def greet : Action := ⟨"Poke the queen. ", some "TALK", [.assertTagIn "queen" "HOME"]⟩

/-- The lines of the tape are few enough. -/
theorem fits : tape.text.Fits := TextBook.fits_of_entries (by decide)

/-- The greeting leads to the frame that waits for a bow. -/
theorem reached_greeted : Playthrough.Reached tape greeted := by
  have hstart : Playthrough.start tape none = .ok { tape, current := opening } := by rfl
  have hactions : Playthrough.actions { tape, current := opening } = .ok ⟨[greet]⟩ := by rfl
  have hgreet : Playthrough.perform { tape, current := opening } greet
      = (greeted, .ok ["HELLO"]) := by rfl
  exact .perform (.start hstart) hactions List.mem_cons_self hgreet

end Hall

/-- The hall has no problems, so the bow can be read and taken once the queen is greeted. -/
theorem greeted_hall_reads :
    Hall.tape.text.Fits ∧ Hall.tape.problems = [] ∧
      Playthrough.Reached Hall.tape Hall.greeted ∧
      Playthrough.TurnReads (Hall.greeted.take ⟨"TALK-1", []⟩) ∧
      ∃ line, Hall.greeted.text "TALK-1S" = .ok line := by
  have hclean : Hall.tape.problems = [] := by rfl
  obtain ⟨-, htake, hlabel⟩ := clean_tape_reads Hall.fits hclean Hall.reached_greeted
  have hstep : (0, ⟨"TALK-1", []⟩) ∈ Hall.greeted.choices := by decide
  have hnode : Hall.greeted.node? =
      some ("TALK", { text := ["HELLO"], choices := [Hall.bow] }) := by rfl
  exact ⟨Hall.fits, hclean, Hall.reached_greeted, htake 0 _ hstep,
    hlabel "TALK" _ hnode Hall.bow List.mem_cons_self Hall.greeted.world⟩

end StoryTape
