import StoryTape.Proofs.OutlinePlaces

/-!
# Which choices are offered

The root of a dialogue offers the choices of depth zero, an answer those one deeper than itself up
to the first line that is no deeper. A line is at most one deeper than the line before it, so the
nearest shallower line before a choice is one shallower, and it is an answer or a dead end. Under an
answer the choice is offered by that answer and by nobody else; under a dead end nobody offers it.
-/

namespace StoryTape.Script

/-! ### The line over a choice -/

/-- `a` is the nearest line before the place `p` that is shallower. -/
structure Over (ls : List OutlineLine) (a p : Place) : Prop where
  place : a.1 :: a.2 <:+ ls
  shallower : a.1.depth < p.1.depth
  nearest : ∃ between, a.2 = between ++ p.1 :: p.2 ∧ ∀ l ∈ between, p.1.depth ≤ l.depth

section Over

variable {o : Outline} {ls : List OutlineLine} {a a' p : Place}

/-- Where the first line is shallower than a place, there is a nearest shallower line. -/
theorem exists_over {first : OutlineLine} {rest : List OutlineLine}
    (hplace : p.1 :: p.2 <:+ first :: rest) (hfirst : first.depth < p.1.depth) :
    ∃ a, Over (first :: rest) a p := by
  obtain ⟨_ | ⟨l, before⟩, hsplit⟩ := hplace
  · obtain ⟨rfl, rfl⟩ := List.cons.inj hsplit
    exact absurd hfirst (Nat.lt_irrefl _)
  · obtain ⟨rfl, rfl⟩ := List.cons.inj hsplit
    have hshallower : ∃ b ∈ l :: before, b.depth < p.1.depth := ⟨l, List.mem_cons_self, hfirst⟩
    obtain ⟨front, a, between, hbefore, hlt, hdeep⟩ := exists_last_of_exists hshallower
    refine ⟨(a, between ++ p.1 :: p.2), ⟨front, ?_⟩, hlt, between, rfl, fun b hb => ?_⟩
    · rw [← List.cons_append, ← List.append_assoc, ← hbefore]
      rfl
    · exact Nat.le_of_not_lt (hdeep b hb)

/-- Lines get deeper one by one, so the line over a place is one shallower. -/
theorem Over.depth_eq (h : Over ls a p) (hchain : ls.IsChain Follows) :
    p.1.depth = a.1.depth + 1 := by
  obtain ⟨between, hrest, hdeep⟩ := h.nearest
  have hbelow := hchain.suffix h.place
  have hshallower := h.shallower
  rw [hrest] at hbelow
  cases between with
  | nil =>
    have hle := (List.isChain_cons_cons.mp hbelow).1.depth_le
    split at hle <;> omega
  | cons l between =>
    have hle := (List.isChain_cons_cons.mp hbelow).1.depth_le
    have hge := hdeep l List.mem_cons_self
    split at hle <;> omega

/-- The nearest shallower line before a place is unique. -/
theorem Over.eq_of_suffix (h : Over ls a p) (h' : Over ls a' p)
    (hsuffix : a.1 :: a.2 <:+ a'.1 :: a'.2) : a = a' := by
  rcases List.suffix_cons_iff.mp hsuffix with heq | ⟨front, hfront⟩
  · obtain ⟨hline, hrest⟩ := List.cons.inj heq
    exact Prod.ext hline hrest
  · -- The line would stand between the other one and the place.
    obtain ⟨between, hrest, -⟩ := h.nearest
    obtain ⟨between', hrest', hdeep'⟩ := h'.nearest
    rw [hrest, hrest', ← List.cons_append, ← List.append_assoc] at hfront
    have hmem : a.1 ∈ between' := List.append_cancel_right hfront ▸ by simp
    exact absurd h.shallower (Nat.not_lt.mpr (hdeep' _ hmem))

/-- No place has two lines over it. -/
theorem Over.unique (h : Over ls a p) (h' : Over ls a' p) : a = a' := by
  rcases List.suffix_or_suffix_of_suffix h.place h'.place with hsuffix | hsuffix
  · exact h.eq_of_suffix h' hsuffix
  · exact (h'.eq_of_suffix h hsuffix).symm

end Over

/-! ### Offers -/

namespace Outline

variable {o : Outline} {a p : Place}

/-- The root offers the choices of depth zero. -/
theorem mem_offered_opening_iff :
    p ∈ o.offered .opening ↔
      p.1 :: p.2 <:+ o.lines ∧ p.1.isDeadEnd = false ∧ p.1.depth = 0 := by
  rw [offered, mem_linesAt_iff, isChoiceAt_iff]
  refine and_congr_left fun _ => ⟨?_, ?_⟩
  · rintro ⟨_, between, hlines, -⟩
    exact ⟨between, hlines.symm⟩
  · rintro ⟨between, hlines⟩
    exact ⟨_, between, hlines.symm, fun l _ => Nat.zero_le _, rfl⟩

/-- An answer offers the choices that it stands over. -/
theorem Linked.mem_offered_answer_iff (h : o.Linked) (ha : a.1 :: a.2 <:+ o.lines) :
    p ∈ o.offered (.answer a) ↔ Over o.lines a p ∧ p.1.isDeadEnd = false := by
  rw [offered, mem_linesAt_iff, isChoiceAt_iff]
  constructor
  · rintro ⟨⟨_, between, hrest, hdeep, -⟩, hline, hdepth⟩
    exact ⟨⟨ha, by omega, between, hrest, hdepth ▸ hdeep⟩, hline⟩
  · rintro ⟨hover, hline⟩
    obtain ⟨between, hrest, hdeep⟩ := hover.nearest
    have hdepth := hover.depth_eq h.chain
    exact ⟨⟨_, between, hrest, hdepth ▸ hdeep, rfl⟩, hline, hdepth⟩

/-- Every answer behind the first line speaks. -/
theorem mem_speakers_answer_iff :
    .answer a ∈ o.speakers ↔ a.1 :: a.2 <:+ o.lines.tail ∧ ∃ name, a.1.role = .answer name := by
  simp [speakers, mem_answersIn_iff]

/-- A choice offered by an answer has it as the nearest shallower line before it. -/
theorem Linked.over_of_mem_offered (h : o.Linked) (ha : .answer a ∈ o.speakers)
    (hp : p ∈ o.offered (.answer a)) : Over o.lines a p ∧ p.1.isDeadEnd = false :=
  (h.mem_offered_answer_iff ((mem_speakers_answer_iff.mp ha).1.trans (List.tail_suffix _))).mp hp

/-- What is offered is a choice, made at a place of the outline. -/
theorem Linked.of_mem_offers (h : o.Linked) (hp : p ∈ o.offers) :
    p.1 :: p.2 <:+ o.lines ∧ p.1.isDeadEnd = false ∧ p.1.depth % 2 = 0 := by
  obtain ⟨s, hs, hp⟩ := List.mem_flatMap.mp hp
  cases s with
  | opening =>
    obtain ⟨hplace, hline, hdepth⟩ := mem_offered_opening_iff.mp hp
    exact ⟨hplace, hline, by omega⟩
  | answer a =>
    obtain ⟨hover, hline⟩ := h.over_of_mem_offered hs hp
    obtain ⟨between, hrest, -⟩ := hover.nearest
    have hplace : p.1 :: p.2 <:+ o.lines :=
      (List.IsSuffix.trans ⟨a.1 :: between, by rw [hrest]; rfl⟩ hover.place)
    have hanswer := (h.answer a.1 (hover.place.subset List.mem_cons_self)).mp
      (mem_speakers_answer_iff.mp hs).2
    have hdepth := hover.depth_eq h.chain
    exact ⟨hplace, hline, by omega⟩

/-- A choice that two speakers offer is offered by one and the same. -/
theorem Linked.speaker_unique (h : o.Linked) {s s' : Speaker} (hs : s ∈ o.speakers)
    (hs' : s' ∈ o.speakers) (hp : p ∈ o.offered s) (hp' : p ∈ o.offered s') : s = s' := by
  have apart {a : Place} (ha : .answer a ∈ o.speakers) (hp : p ∈ o.offered (.answer a))
      (hp' : p ∈ o.offered .opening) : False := by
    have hshallower := (h.over_of_mem_offered ha hp).1.shallower
    have hdepth := (mem_offered_opening_iff.mp hp').2.2
    omega
  cases s with
  | opening =>
    cases s' with
    | opening => rfl
    | answer a' => exact (apart hs' hp' hp).elim
  | answer a =>
    cases s' with
    | opening => exact (apart hs hp hp').elim
    | answer a' =>
      have hover := (h.over_of_mem_offered hs hp).1
      rw [hover.unique (h.over_of_mem_offered hs' hp').1]

/-- Nobody speaks twice. -/
theorem nodup_speakers (o : Outline) : o.speakers.Nodup := by
  refine List.nodup_cons.mpr ⟨by simp, nodup_answersIn.map fun a a' hsame => ?_⟩
  exact Speaker.answer.inj hsame

/-- No choice is offered twice. -/
theorem Linked.nodup_offers (h : o.Linked) : o.offers.Nodup := by
  refine List.nodup_flatMap.mpr ⟨fun s _ => ?_, ?_⟩
  · cases s with
    | opening => exact nodup_linesAt
    | answer a => exact nodup_linesAt
  · refine o.nodup_speakers.pairwise_of_forall_ne fun s hs s' hs' hne p hp hp' => ?_
    exact hne (h.speaker_unique hs hs' hp hp')

/-- In an outline that opens at depth zero, answers that stand over a choice offer it. -/
theorem Linked.mem_offered_of_over (h : o.Linked) (hopens : ∀ l ∈ o.lines.head?, l.depth = 0)
    (hover : Over o.lines a p) (hline : p.1.isDeadEnd = false)
    (hanswer : ∃ name, a.1.role = .answer name) :
    .answer a ∈ o.speakers ∧ p ∈ o.offered (.answer a) := by
  refine ⟨mem_speakers_answer_iff.mpr ⟨?_, hanswer⟩,
    (h.mem_offered_answer_iff hover.place).mpr ⟨hover, hline⟩⟩
  have hodd := ((h.answer a.1 (hover.place.subset List.mem_cons_self)).mp hanswer).2
  obtain ⟨before, hlines⟩ := hover.place
  cases before with
  | nil =>
    have hdepth := hopens a.1 (by simp [← hlines])
    omega
  | cons first before => exact ⟨before, by rw [← hlines]; rfl⟩

/-- A choice that nobody offers stands under a dead end, and nobody offers one that does. -/
theorem Linked.not_mem_offers_iff (h : o.Linked) (hplace : p.1 :: p.2 <:+ o.lines)
    (hopens : ∀ l ∈ o.lines.head?, l.depth = 0) (hline : p.1.isDeadEnd = false)
    (heven : p.1.depth % 2 = 0) :
    p ∉ o.offers ↔ ∃ a, Over o.lines a p ∧ a.1.isDeadEnd = true := by
  constructor
  · intro hnone
    have unoffered {s : Speaker} (hs : s ∈ o.speakers) : p ∉ o.offered s :=
      fun hp => hnone (List.mem_flatMap.mpr ⟨s, hs, hp⟩)
    have hdeep : p.1.depth ≠ 0 := fun hdepth =>
      unoffered List.mem_cons_self (mem_offered_opening_iff.mpr ⟨hplace, hline, hdepth⟩)
    -- The line over the choice is of odd depth, so it is an answer or a dead end.
    obtain ⟨a, hover⟩ : ∃ a, Over o.lines a p := by
      cases hlines : o.lines with
      | nil => simp [hlines] at hplace
      | cons first rest =>
        have hfirst := hopens first (by simp [hlines])
        exact exists_over (hlines ▸ hplace) (by omega)
    refine ⟨a, hover, Decidable.byContradiction fun hdead => ?_⟩
    have hdepth := hover.depth_eq h.chain
    have hanswer := (h.answer a.1 (hover.place.subset List.mem_cons_self)).mpr
      ⟨Bool.eq_false_iff.mpr hdead, by omega⟩
    obtain ⟨hs, hp⟩ := h.mem_offered_of_over hopens hover hline hanswer
    exact unoffered hs hp
  · rintro ⟨a, hover, hdead⟩ hp
    obtain ⟨s, hs, hp⟩ := List.mem_flatMap.mp hp
    cases s with
    | opening =>
      have hshallower := hover.shallower
      have hdepth := (mem_offered_opening_iff.mp hp).2.2
      omega
    | answer a' =>
      obtain rfl := hover.unique (h.over_of_mem_offered hs hp).1
      have hanswer := mem_speakers_answer_iff.mp hs
      rw [((h.answer _ (hover.place.subset List.mem_cons_self)).mp hanswer.2).1] at hdead
      cases hdead

end Outline

/-- **Choices are offered once or not at all.** The nodes of a dialogue are those of its speakers,
the root and the answers, with the choices they offer, and those of the choices without an answer,
with none. A choice of depth zero is offered once, by the root. One under an answer is offered once,
by that answer. One under a dead end, and no other, is never offered. -/
theorem choices_offered_once {root : String} {texts : List (List Char)} {o : Outline}
    {nodes : List (String × DialogueNode)} (hreads : Outline.Reads root texts o)
    (hnodes : o.nodes = .ok nodes) :
    (∃ spoken endings, nodes = spoken ++ endings ∧ List.Forall₂ o.NodeOf o.speakers spoken ∧
      ∀ node ∈ endings, node.2.choices = []) ∧
    (∀ p ∈ o.offers, p.1 :: p.2 <:+ o.lines ∧ p.1.isDeadEnd = false ∧ p.1.depth % 2 = 0) ∧
    ∀ p : Place, p.1 :: p.2 <:+ o.lines → p.1.isDeadEnd = false → p.1.depth % 2 = 0 →
      o.offers.count p ≤ 1 ∧
      (p.1.depth = 0 → o.offers.count p = 1 ∧ p ∈ o.offered .opening) ∧
      (∀ a, Over o.lines a p → (∃ name, a.1.role = .answer name) →
        o.offers.count p = 1 ∧ .answer a ∈ o.speakers ∧ p ∈ o.offered (.answer a)) ∧
      (o.offers.count p = 0 ↔ ∃ a, Over o.lines a p ∧ a.1.isDeadEnd = true) := by
  have hlinked := hreads.linked
  obtain ⟨-, ⟨first, rest, hlines, hfirst⟩, rfl⟩ := Outline.nodes_eq_ok_iff.mp hnodes
  have hopens : ∀ l ∈ o.lines.head?, l.depth = 0 := by simp [hlines, hfirst]
  have once {s : Speaker} {p : Place} (hs : s ∈ o.speakers) (hp : p ∈ o.offered s) :
      o.offers.count p = 1 :=
    List.count_eq_one_of_mem hlinked.nodup_offers (List.mem_flatMap.mpr ⟨s, hs, hp⟩)
  obtain ⟨spoken, hnodesOf, hspoken⟩ := o.exists_nodesOf_eq
  refine ⟨⟨spoken, _, hnodesOf, hspoken, fun _ => Outline.choices_of_mem_endings⟩,
    fun p => hlinked.of_mem_offers, fun p hplace hline heven => ?_⟩
  refine ⟨List.nodup_iff_count_le_one.mp hlinked.nodup_offers p, fun hdepth => ?_,
    fun a hover hanswer => ?_, ?_⟩
  · have hp := Outline.mem_offered_opening_iff.mpr ⟨hplace, hline, hdepth⟩
    exact ⟨once List.mem_cons_self hp, hp⟩
  · obtain ⟨hs, hp⟩ := hlinked.mem_offered_of_over hopens hover hline hanswer
    exact ⟨once hs hp, hs, hp⟩
  · rw [List.count_eq_zero]
    exact hlinked.not_mem_offers_iff hplace hopens hline heven

/-! ### A haggle to follow -/

namespace Haggle

/-- Two choices are under the answer and one under the dead end that follows. -/
def texts : List (List Char) :=
  ["-- [Yes] Yes.", "--- Good.", "---- [More] More of it.", "---- [Less] Less of it.",
    "---> Back", "---- [Again] Again.", "-- [No] No."].map String.toList

/-- A choice without context and cost. -/
def choice (depth : Nat) (name : String) : OutlineLine :=
  { depth, name, keys := [name], role := .choice .empty .empty }

/-- The answer. -/
def good : OutlineLine :=
  { depth := 1, name := "TALK-1-0", keys := ["TALK-1-0"], role := .answer "TALK-1" }

/-- The dead end. -/
def back : OutlineLine :=
  { depth := 1, name := "TALK-1-0", keys := [], role := .deadEnd .empty .empty (some "Back") }

/-- The choice under the dead end, which has the name of one under the answer. -/
def again : OutlineLine := { choice 2 "TALK-1-1" with keys := ["TALK-1-1_1"] }

/-- What is read of the texts. -/
def lines : List OutlineLine :=
  [choice 0 "TALK-1", good, choice 2 "TALK-1-1", choice 2 "TALK-1-2", back, again,
    choice 0 "TALK-2"]

/-- The texts are read into the lines, and the lines make nodes. -/
theorem exists_read : ∃ o nodes, Outline.Reads "TALK" texts o ∧ o.lines = lines ∧
    o.nodes = .ok nodes := by
  have hlines : ((Outline.start "TALK").addAll {} texts).map (·.1.lines) = some lines := by
    decide +kernel
  obtain ⟨⟨o, store⟩, hadd, hlines⟩ := Option.map_eq_some_iff.mp hlines
  obtain hlines : o.lines = lines := hlines
  have htop : choicesAt 0 lines ≠ [] := by decide
  refine ⟨o, o.nodesOf, Outline.Reads.start.addAll hadd, hlines, ?_⟩
  exact Outline.nodes_eq_ok_iff.mpr ⟨hlines ▸ htop, ⟨_, _, hlines, rfl⟩, rfl⟩

end Haggle

/-- Of two choices of one name the one under the answer is offered, the one under the dead end is
not. -/
theorem haggle_offered_once : ∃ o nodes, Outline.Reads "TALK" Haggle.texts o ∧
    o.lines = Haggle.lines ∧ o.nodes = .ok nodes ∧
    o.offers.count (Haggle.choice 2 "TALK-1-1", Haggle.lines.drop 3) = 1 ∧
    o.offers.count (Haggle.again, Haggle.lines.drop 6) = 0 := by
  obtain ⟨o, nodes, hreads, hlines, hnodes⟩ := Haggle.exists_read
  refine ⟨o, nodes, hreads, hlines, hnodes, ?_, ?_⟩
  · have hover : Over o.lines (Haggle.good, Haggle.lines.drop 2)
        (Haggle.choice 2 "TALK-1-1", Haggle.lines.drop 3) :=
      ⟨by rw [hlines]; exact ⟨Haggle.lines.take 1, rfl⟩, by decide, [], rfl, nofun⟩
    have hplace : Haggle.choice 2 "TALK-1-1" :: Haggle.lines.drop 3 <:+ o.lines := by
      rw [hlines]
      exact ⟨Haggle.lines.take 2, rfl⟩
    exact (((choices_offered_once hreads hnodes).2.2 _ hplace rfl rfl).2.2.1 _ hover
      ⟨_, rfl⟩).1
  · have hover : Over o.lines (Haggle.back, Haggle.lines.drop 5)
        (Haggle.again, Haggle.lines.drop 6) :=
      ⟨by rw [hlines]; exact ⟨Haggle.lines.take 4, rfl⟩, by decide, [], rfl, nofun⟩
    have hplace : Haggle.again :: Haggle.lines.drop 6 <:+ o.lines := by
      rw [hlines]
      exact ⟨Haggle.lines.take 5, rfl⟩
    exact ((choices_offered_once hreads hnodes).2.2 _ hplace rfl rfl).2.2.2.mpr ⟨_, hover, rfl⟩

end StoryTape.Script
