import StoryTape.Proofs.DialogueBlocks
import StoryTape.Proofs.OfferedChoices

/-!
# Which dead ends are taken

A choice looks for a dead end of its own depth at one place only: right after itself when nobody
answers, and right after its answer otherwise. Since a line is at most one deeper than the line
before, what stands right after a choice tells which of the two it is. A dead end at such a place
gives its payload and gain to that choice alone, and its goto to the node that the choice leads to.
A dead end that stands anywhere else is not taken by any choice.
-/

namespace StoryTape.Script

open Text

/-! ### The ending of a choice -/

/-- What the choice made at a place takes from a dead end. -/
def endingOf (p : Place) : Option Ending :=
  endingAt p.1.depth
    (if (linesAt (p.1.depth + 1) p.2).isEmpty then p.2.head? else p.2[1]?)

/-- The dead end `d` closes the choice made at `p`: it is of the same depth and stands right after
the choice, or right after an answer that stands right after the choice. -/
structure Closes (d p : Place) : Prop where
  deadEnd : d.1.isDeadEnd = true
  depth_eq : d.1.depth = p.1.depth
  place : p.2 = d.1 :: d.2 ∨
    ∃ a, p.2 = a :: d.1 :: d.2 ∧ a.isDeadEnd = false ∧ a.depth = p.1.depth + 1

section Endings

variable {depth : Nat} {l : OutlineLine} {p d : Place} {e : Ending}

/-- A line that carries an ending is a dead end. -/
theorem isDeadEnd_of_ending? (h : l.ending? = some e) : l.isDeadEnd = true := by
  unfold OutlineLine.ending? at h
  unfold OutlineLine.isDeadEnd
  grind

/-- A line ends choices of its own depth alone. -/
theorem endingAt_some : endingAt depth (some l) = if l.depth = depth then l.ending? else none := by
  obtain ⟨d, name, keys, role⟩ := l
  cases role <;> simp [endingAt, OutlineLine.ending?]

/-- An ending is taken from a line of the right depth that carries it. -/
theorem endingAt_eq_some_iff {line : Option OutlineLine} :
    endingAt depth line = some e ↔ ∃ l, line = some l ∧ l.depth = depth ∧ l.ending? = some e := by
  cases line with
  | none => simp [endingAt]
  | some l => simp [endingAt_some]

/-- A line deeper than the one before it is no dead end. -/
theorem Follows.isDeadEnd_eq {a b : OutlineLine} (h : Follows a b)
    (hdeeper : b.depth = a.depth + 1) : b.isDeadEnd = false := by
  cases hdead : b.isDeadEnd with
  | false => rfl
  | true =>
    have hle := h.depth_le
    rw [hdead, if_pos rfl] at hle
    omega

/-- Where a dead end comes first there is no deeper choice. -/
theorem linesAt_eq_nil_of_endingAt {depth' : Nat} {ls : List OutlineLine}
    (h : endingAt depth ls.head? = some e) (hlt : depth < depth') : linesAt depth' ls = [] := by
  obtain ⟨l, hl, hdepth, -⟩ := endingAt_eq_some_iff.mp h
  obtain ⟨rest, rfl⟩ := List.head?_eq_some_iff.mp hl
  rw [linesAt_cons, if_pos (by omega)]

/-- A choice with an answer right after it looks behind the answer. -/
theorem endingOf_cons {next : OutlineLine} {rest : List OutlineLine}
    (hfollows : Follows l next) : endingOf (l, next :: rest) =
      endingAt l.depth (if next.depth = l.depth + 1 then rest.head? else some next) := by
  have hle := hfollows.depth_le
  by_cases hdeeper : next.depth = l.depth + 1
  · have hline := hfollows.isDeadEnd_eq hdeeper
    have hanswers : linesAt (l.depth + 1) (next :: rest) ≠ [] := by
      rw [linesAt_cons, if_neg (by omega), if_pos (isChoiceAt_iff.mpr ⟨hline, hdeeper⟩)]
      exact List.cons_ne_nil _ _
    rw [endingOf, if_neg (mt List.isEmpty_iff.mp hanswers), if_pos hdeeper, List.head?_eq_getElem?]
    rfl
  · have hshallow : next.depth < l.depth + 1 := by split at hle <;> omega
    have hnone : linesAt (l.depth + 1) (next :: rest) = [] := by
      rw [linesAt_cons, if_pos hshallow]
    rw [endingOf, hnone, if_neg hdeeper]
    rfl

/-- Whatever a choice takes is carried by a dead end that closes it. -/
theorem endingOf_eq_some_iff (hchain : (p.1 :: p.2).IsChain Follows) :
    endingOf p = some e ↔ ∃ d, Closes d p ∧ d.1.ending? = some e := by
  obtain ⟨l, rest⟩ := p
  cases rest with
  | nil =>
    refine iff_of_false (by simp [endingOf, linesAt, endingAt]) ?_
    rintro ⟨d, ⟨-, -, hplace | ⟨a, hplace, -⟩⟩, -⟩ <;> cases hplace
  | cons next rest =>
    have hfollows := (List.isChain_cons_cons.mp hchain).1
    rw [endingOf_cons hfollows, endingAt_eq_some_iff]
    constructor
    · rintro ⟨dead, hdead, hdepth, hending⟩
      split at hdead
      · next hdeeper =>
        obtain ⟨below, rfl⟩ := List.head?_eq_some_iff.mp hdead
        exact ⟨(dead, below), ⟨isDeadEnd_of_ending? hending, hdepth,
          .inr ⟨next, rfl, hfollows.isDeadEnd_eq hdeeper, hdeeper⟩⟩, hending⟩
      · cases hdead
        exact ⟨(next, rest), ⟨isDeadEnd_of_ending? hending, hdepth, .inl rfl⟩, hending⟩
    · rintro ⟨d, ⟨hdead, hdepth, hplace | ⟨a, hplace, hline, hdeeper⟩⟩, hending⟩
      · obtain ⟨rfl, rfl⟩ := List.cons.inj hplace
        have hsame : d.1.depth = l.depth := hdepth
        exact ⟨d.1, by rw [if_neg (by omega)], hdepth, hending⟩
      · obtain ⟨rfl, rfl⟩ := List.cons.inj hplace
        exact ⟨d.1, by rw [if_pos hdeeper]; rfl, hdepth, hending⟩

/-- Payload and gain of a choice are those of its ending. -/
theorem payload_madeChoice : (madeChoice p).payload = (endingOf p).elim .empty Ending.payload ∧
    (madeChoice p).gain = (endingOf p).elim .empty Ending.gain := by
  rw [madeChoice, choiceOf, endingOf]
  by_cases hanswered : (linesAt (p.1.depth + 1) p.2).isEmpty = true
  · simp only [hanswered, Bool.not_true, Bool.false_eq_true, if_false, if_true]
    cases endingAt p.1.depth p.2.head? <;> exact ⟨rfl, rfl⟩
  · simp only [hanswered, Bool.not_false, Bool.false_eq_true, if_false, if_true]
    cases endingAt p.1.depth p.2[1]? <;> exact ⟨rfl, rfl⟩

/-- The node of a choice without an answer has the goto of its ending. -/
theorem endingNode?_of_unanswered (hnone : linesAt (p.1.depth + 1) p.2 = []) :
    endingNode? p =
      some (p.1.name, { text := p.1.keys, goto := (endingOf p).bind Ending.goto }) := by
  unfold endingNode? choiceOf endingOf
  simp [hnone]

/-- Suffixes of one list are the same when they are equally long. -/
theorem eq_of_suffix_of_length {α : Type} {xs ys zs : List α} (hxs : xs <:+ zs) (hys : ys <:+ zs)
    (hlength : xs.length = ys.length) : xs = ys :=
  (List.suffix_of_suffix_length_le hxs hys hlength.le).eq_of_length hlength

/-- A dead end closes one choice at most. -/
theorem Closes.unique {ls : List OutlineLine} {p' : Place} (h : Closes d p) (h' : Closes d p')
    (hp : p.1 :: p.2 <:+ ls) (hp' : p'.1 :: p'.2 <:+ ls) : p = p' := by
  have hdepth := h.depth_eq
  have hdepth' := h'.depth_eq
  rcases h.place with hrest | ⟨a, hrest, -, ha⟩ <;>
    rcases h'.place with hrest' | ⟨a', hrest', -, ha'⟩ <;>
    rw [hrest] at hp <;> rw [hrest'] at hp'
  · have hsame := (List.cons.inj (eq_of_suffix_of_length hp hp' rfl)).1
    exact Prod.ext hsame (hrest.trans hrest'.symm)
  · -- The choice would stand where the other one is answered.
    have hsame := eq_of_suffix_of_length hp ((List.suffix_cons _ _).trans hp') rfl
    have hchoice : p.1 = a' := (List.cons.inj hsame).1
    rw [hchoice] at hdepth
    omega
  · have hsame := eq_of_suffix_of_length ((List.suffix_cons _ _).trans hp) hp' rfl
    have hchoice : a = p'.1 := (List.cons.inj hsame).1
    rw [hchoice] at ha
    omega
  · have hsame := (List.cons.inj (eq_of_suffix_of_length hp hp' rfl))
    exact Prod.ext hsame.1 (hrest.trans (hsame.2.trans hrest'.symm))

end Endings

namespace Outline

variable {o : Outline} {p : Place}

/-- An offered choice leads to a node with the goto of the ending. -/
theorem Linked.exists_node_of_offered (h : o.Linked) (hp : p ∈ o.offers) :
    ∃ node, ((madeChoice p).next, node) ∈ o.nodesOf ∧
      node.goto = (endingOf p).bind Ending.goto := by
  obtain ⟨hplace, hline, heven⟩ := h.of_mem_offers hp
  obtain ⟨spoken, hnodes, -⟩ := o.exists_nodesOf_eq
  have hchain := h.chain.suffix hplace
  by_cases hanswered : linesAt (p.1.depth + 1) p.2 = []
  · refine ⟨{ text := p.1.keys, goto := (endingOf p).bind Ending.goto }, ?_, rfl⟩
    rw [hnodes]
    exact List.mem_append_right _
      (List.mem_filterMap.mpr ⟨p, hp, endingNode?_of_unanswered hanswered⟩)
  · obtain ⟨a, below, hrest, hdepth, hrole⟩ := exists_answer hchain heven hline hanswered
    have hanswer : a :: below <:+ o.lines.tail := hrest ▸ suffix_tail_of_suffix hplace
    obtain ⟨node, hnode, -, hgoto⟩ := exists_node_of_answer hanswer hrole
    refine ⟨node, List.mem_cons_of_mem _ (List.mem_append_left _ hnode), hgoto.trans ?_⟩
    have hending : endingOf p = endingAt p.1.depth below.head? := by
      rw [hrest] at hchain
      have hcons : endingOf (p.1, a :: below) = _ :=
        endingOf_cons (List.isChain_cons_cons.mp hchain).1
      rwa [← hrest, if_pos hdepth] at hcons
    rw [hending, show a.depth - 1 = p.1.depth by omega]
    split
    · rfl
    · next hbelow =>
      -- A dead end would stand before the choices below the answer.
      cases hsome : endingAt p.1.depth below.head? with
      | none => rfl
      | some e => exact absurd (linesAt_eq_nil_of_endingAt hsome (by omega)) hbelow

end Outline

/-! ### What the choices carry -/

/-- The choice made at a place carries payload and gain of an ending, and leads to a node of the
tape with its goto. -/
structure Carries (t : Tape) (p : Place) (e : Ending) : Prop where
  payload : (madeChoice p).payload = e.payload
  gain : (madeChoice p).gain = e.gain
  goto : ∃ next, t.text.route? (madeChoice p).next = some next ∧ next.goto = e.goto

/-- The ending without payload, gain and goto. -/
def noEnding : Ending := ⟨.empty, .empty, none⟩

/-- In a tape with the nodes of an outline every choice offered carries its ending. -/
theorem Outline.Linked.carries {o : Outline} (h : o.Linked) {t : Tape}
    (htape : ∀ node ∈ o.nodesOf, t.text.route? node.1 = some node.2) {p : Place}
    (hp : p ∈ o.offers) : Carries t p ((endingOf p).getD noEnding) := by
  obtain ⟨node, hnode, hgoto⟩ := h.exists_node_of_offered hp
  refine ⟨payload_madeChoice.1.trans ?_, payload_madeChoice.2.trans ?_, node, htape _ hnode,
    hgoto.trans ?_⟩ <;> cases endingOf p <;> rfl

/-- **A dead end right after a choice, or right after its answer, is taken by that choice alone.**
The lines of every block of a compiled script are read into an outline whose nodes are in one of the
tapes. A dead end that closes an offered choice gives payload and gain to this choice and to no
other, and its goto to the node that the choice leads to. A choice that no dead end closes carries
nothing, so a dead end at any other place is left out. -/
theorem dead_ends_taken {source : String} {script : CompiledScript}
    {lines before block after : List ScriptLine} (hcompile : compile source = .ok script)
    (hlines : splitScript source = .ok lines) (hblock : IsBlock lines before block after) :
    ∃ t ∈ script.tapes, ∃ root o nodes,
      Outline.Reads root (block.map ScriptLine.content) o ∧
      List.Forall₂ Outline.ReadFrom (block.map ScriptLine.content) o.lines ∧
      o.nodes = .ok nodes ∧ (∀ node ∈ nodes, t.text.route? node.1 = some node.2) ∧
      nodes.flatMap (fun node => node.2.choices) = o.offers.map madeChoice ∧
      (∀ d e, d.1.ending? = some e → (∃ p ∈ o.offers, Closes d p) →
        ∃ p, o.offers.count p = 1 ∧ (∀ q ∈ o.offers, Closes d q ↔ q = p) ∧ Carries t p e) ∧
      ∀ p ∈ o.offers, (∀ d, ¬ Closes d p) → Carries t p noEnding := by
  obtain ⟨t, ht, root, o, hreads, hnodes, htape⟩ := exists_dialogue_of_block hcompile hlines hblock
  have hlinked := hreads.linked
  have hplace {p : Place} (hp : p ∈ o.offers) : p.1 :: p.2 <:+ o.lines :=
    (hlinked.of_mem_offers hp).1
  refine ⟨t, ht, root, o, _, hreads, hreads.forall₂_readFrom, hnodes, htape, o.flatMap_choices,
    ?_, ?_⟩
  · rintro d e hending ⟨p, hp, hcloses⟩
    refine ⟨p, List.count_eq_one_of_mem hlinked.nodup_offers hp, fun q hq => ?_, ?_⟩
    · exact ⟨fun hq' => hq'.unique hcloses (hplace hq) (hplace hp), fun hsame => hsame ▸ hcloses⟩
    · have htaken := (endingOf_eq_some_iff (hlinked.chain.suffix (hplace hp))).mpr
        ⟨d, hcloses, hending⟩
      have hcarries := hlinked.carries htape hp
      rwa [htaken] at hcarries
  · intro p hp hfree
    have hcarries := hlinked.carries htape hp
    have hnone : endingOf p = none := by
      refine Option.eq_none_iff_forall_not_mem.mpr fun e he => ?_
      obtain ⟨d, hcloses, -⟩ :=
        (endingOf_eq_some_iff (hlinked.chain.suffix (hplace hp))).mp he
      exact hfree d hcloses
    rwa [hnone] at hcarries

/-! ### A toll to pay -/

/-- A line has what is split off the text it was read from. -/
theorem Outline.ReadFrom.of_splitHyphens {text content : List Char} {l : OutlineLine} {depth : Nat}
    {deadEnd : Bool} (h : Outline.ReadFrom text l)
    (hsplit : splitHyphens (trim text) = some (depth, deadEnd, content)) :
    l.depth = depth ∧ l.isDeadEnd = deadEnd ∧
      (deadEnd = true → l.ending? = some (Outline.endingFrom content)) := by
  obtain ⟨content', hread, hending⟩ := h
  cases hsplit.symm.trans hread
  exact ⟨rfl, rfl, hending⟩

namespace Toll

/-- One choice is closed behind its answer, one at once. -/
def script : String :=
  "== GATE [GATE, troll]\n++ ()-[?troll]->() #ASK Who goes?\n-- [Pay] Here is gold.\n" ++
  "--- Go on.\n--> (pass)\x7bcoin\x7d\n-- [Leave] Good bye.\n--> (fear) ASK"

/-- The lines before the dialogue. -/
def before : List ScriptLine :=
  [⟨1, .state, "GATE [GATE, troll]".toList⟩, ⟨2, .rule, "()-[?troll]->() #ASK Who goes?".toList⟩]

/-- The lines of the dialogue. -/
def block : List ScriptLine :=
  [⟨3, .route, "-- [Pay] Here is gold.".toList⟩, ⟨4, .route, "--- Go on.".toList⟩,
    ⟨5, .route, "--> (pass)\x7bcoin\x7d".toList⟩, ⟨6, .route, "-- [Leave] Good bye.".toList⟩,
    ⟨7, .route, "--> (fear) ASK".toList⟩]

/-- The script compiles, and its lines are those before the dialogue and those of it. -/
theorem exists_compiled : ∃ s, compile script = .ok s ∧
    splitScript script = .ok (before ++ (block ++ [])) := by
  have hcompiled : (compile script).toOption.map (fun _ => ()) = some () := by decide +kernel
  have hlines : (splitScript script).toOption.map (fun ls => ls) =
      some (before ++ (block ++ [])) := by decide +kernel
  obtain ⟨s, hs, -⟩ := exists_ok_of_map hcompiled
  obtain ⟨_, hlines, rfl⟩ := exists_ok_of_map hlines
  exact ⟨s, hs, hlines⟩

/-- The dialogue stands behind a line that is none. -/
theorem isBlock : IsBlock (before ++ (block ++ [])) before block [] where
  lines_eq := rfl
  ne_nil := List.cons_ne_nil _ _
  route := by decide
  before_ne := by decide
  after_ne := nofun

/-- What the dead end behind the answer carries. -/
def toll : Ending := Outline.endingFrom "(pass)\x7bcoin\x7d".toList

/-- The choice to pay is offered, and the dead end behind its answer closes it. -/
theorem exists_closed {o : Outline}
    (h : List.Forall₂ Outline.ReadFrom (block.map ScriptLine.content) o.lines) :
    ∃ p ∈ o.offers, ∃ d, Closes d p ∧ d.1.ending? = some toll := by
  have hpay : splitHyphens (trim "-- [Pay] Here is gold.".toList) =
      some (0, false, "[Pay] Here is gold.".toList) := by decide +kernel
  have hgo : splitHyphens (trim "--- Go on.".toList) = some (1, false, "Go on.".toList) := by
    decide +kernel
  have htoll : splitHyphens (trim "--> (pass)\x7bcoin\x7d".toList) =
      some (0, true, "(pass)\x7bcoin\x7d".toList) := by decide +kernel
  obtain ⟨pay, _, hfirst, hbelow, hlines⟩ := List.forall₂_cons_left_iff.mp h
  obtain ⟨go, _, hsecond, hbehind, rfl⟩ := List.forall₂_cons_left_iff.mp hbelow
  obtain ⟨dead, below, hthird, -, rfl⟩ := List.forall₂_cons_left_iff.mp hbehind
  obtain ⟨hdepth, hline, -⟩ := hfirst.of_splitHyphens hpay
  obtain ⟨hdeeper, hanswer, -⟩ := hsecond.of_splitHyphens hgo
  obtain ⟨hsame, hdead, hending⟩ := hthird.of_splitHyphens htoll
  have hp : (pay, go :: dead :: below) ∈ o.offered .opening :=
    Outline.mem_offered_opening_iff.mpr ⟨⟨[], hlines.symm⟩, hline, hdepth⟩
  refine ⟨_, List.mem_flatMap.mpr ⟨.opening, List.mem_cons_self, hp⟩, (dead, below), ?_,
    hending rfl⟩
  exact ⟨hdead, hsame.trans hdepth.symm, .inr ⟨go, rfl, hanswer, by rw [hdeeper, hdepth]⟩⟩

end Toll

/-- The toll is paid by the choice to pay, behind whose answer it stands. -/
theorem toll_taken : ∃ script, compile Toll.script = .ok script ∧
    splitScript Toll.script = .ok (Toll.before ++ (Toll.block ++ [])) ∧
    IsBlock (Toll.before ++ (Toll.block ++ [])) Toll.before Toll.block [] ∧
    ∃ t ∈ script.tapes, ∃ root o d p,
      Outline.Reads root (Toll.block.map ScriptLine.content) o ∧ d.1.ending? = some Toll.toll ∧
      Closes d p ∧ o.offers.count p = 1 ∧ (∀ q ∈ o.offers, Closes d q ↔ q = p) ∧
      Carries t p Toll.toll := by
  obtain ⟨script, hcompile, hlines⟩ := Toll.exists_compiled
  obtain ⟨t, ht, root, o, nodes, hreads, hread, -, -, -, htaken, -⟩ :=
    dead_ends_taken hcompile hlines Toll.isBlock
  obtain ⟨p, hp, d, hcloses, hending⟩ := Toll.exists_closed hread
  obtain ⟨p', honce, hunique, hcarries⟩ := htaken d Toll.toll hending ⟨p, hp, hcloses⟩
  obtain rfl := (hunique p hp).mp hcloses
  exact ⟨script, hcompile, hlines, Toll.isBlock, t, ht, root, o, d, p, hreads, hending, hcloses,
    honce, hunique, hcarries⟩

/-! ### A reward that nobody gets -/

namespace Reward

/-- The dead end stands behind an answer that has a choice below, so it is too late for the choice
that was answered. -/
def script : String :=
  "== A [HOME, hero]\n++ ()-[?hero]->() #TALK Hi\n-- [Yes] please.\n--- Good.\n" ++
  "---- [More] of it.\n--> (sword)"

/-- The dead end. -/
def line : ScriptLine := ⟨6, .route, "--> (sword)".toList⟩

end Reward

/-- No choice of the script carries what its dead end gives. -/
theorem reward_left_out :
    ∃ script lines, compile Reward.script = .ok script ∧
      splitScript Reward.script = .ok lines ∧ Reward.line ∈ lines ∧
      splitHyphens (trim Reward.line.content) = some (0, true, "(sword)".toList) ∧
      (Outline.endingFrom "(sword)".toList).payload.render = "sword" ∧
      ∀ t ∈ script.tapes, ∀ name node, t.text.route? name = some node → ∀ c ∈ node.choices,
        c.payload ≠ (Outline.endingFrom "(sword)".toList).payload := by
  have hlost : (compile Reward.script).toOption.map (fun s => s.tapes.all fun t =>
      t.text.routes.entries.all fun node => node.2.choices.all fun c =>
        c.payload != (Outline.endingFrom "(sword)".toList).payload) = some true := by
    decide +kernel
  have hlines : (splitScript Reward.script).toOption.map (fun ls => ls.contains Reward.line) =
      some true := by decide +kernel
  obtain ⟨script, hcompile, hlost⟩ := exists_ok_of_map hlost
  obtain ⟨lines, hlines, hline⟩ := exists_ok_of_map hlines
  refine ⟨script, lines, hcompile, hlines, by simpa using hline, by decide +kernel,
    by decide +kernel, fun t ht name node hnode c hc => ?_⟩
  have hentry := Dict.get?_eq_some_iff.mp hnode
  simp only [List.all_eq_true, bne_iff_ne] at hlost
  exact hlost t ht _ hentry c hc

end StoryTape.Script
