import StoryTape.Proofs.OfferedChoices

/-!
# How choices are numbered

A choice is named after the node that offers it and by its number there. The names come from a
cursor with a counter on each level: the counter of a level the cursor has come to is the number of
choices of that level since the last shallower line, which dead ends and answers leave alone. So the
choices that a node finds by its search are numbered one by one, also where answers are repeated.
-/

namespace StoryTape.Script

open Text

/-! ### Counting choices -/

section Siblings

variable {depth : Nat} {ls between : List OutlineLine} {l : OutlineLine}

/-- The number of choices of a depth since the last shallower line. -/
def siblings (depth : Nat) (ls : List OutlineLine) : Nat :=
  (ls.reverse.takeWhile (depth ≤ ·.depth)).countP (isChoiceAt depth)

/-- A line counts with the choices of its depth, and starts the count of deeper ones anew. -/
theorem siblings_concat : siblings depth (ls ++ [l]) =
    if depth ≤ l.depth then siblings depth ls + (if isChoiceAt depth l then 1 else 0) else 0 := by
  rw [siblings, List.reverse_concat, List.takeWhile_cons]
  by_cases hdeep : depth ≤ l.depth
  · simp [hdeep, siblings, List.countP_cons]
  · simp [hdeep]

/-- Lines that are deep enough are searched for choices. -/
theorem siblings_append (hdeep : ∀ l ∈ between, depth ≤ l.depth) :
    siblings depth (ls ++ between) = siblings depth ls + between.countP (isChoiceAt depth) := by
  induction between generalizing ls with
  | nil => simp
  | cons l between ih =>
    obtain ⟨hl, hdeep⟩ := List.forall_mem_cons.mp hdeep
    have hsplit : ls ++ l :: between = (ls ++ [l]) ++ between := by simp
    rw [hsplit, ih hdeep, siblings_concat, if_pos hl, List.countP_cons]
    omega

/-- Among deeper lines there is no choice of the depth. -/
theorem siblings_append_of_deeper (hdeep : ∀ l ∈ between, depth < l.depth) :
    siblings depth (ls ++ between) = siblings depth ls := by
  rw [siblings_append fun l hl => Nat.le_of_lt (hdeep l hl), List.countP_eq_zero.mpr fun l hl => ?_,
    Nat.add_zero]
  intro hchoice
  have hdepth := (isChoiceAt_iff.mp hchoice).2
  have hdeeper := hdeep l hl
  omega

/-- Behind a shallower line no choice is counted. -/
theorem siblings_eq_zero (hlast : ∀ l ∈ ls.getLast?, l.depth < depth) : siblings depth ls = 0 := by
  rcases ls.eq_nil_or_concat with rfl | ⟨front, last, rfl⟩
  · rfl
  · rw [List.concat_eq_append] at hlast ⊢
    rw [siblings_concat, if_neg (Nat.not_le.mpr (hlast last (by simp)))]

/-- A name made of the root and the numbers of the choices on the way to the end of some lines, one
for each of the first levels. -/
def pathName (root : String) (ls : List OutlineLine) (levels : Nat) : String :=
  (List.range levels).foldl
    (fun name level => name ++ "-" ++ countText (siblings (2 * level) ls)) root

/-- A level deeper the name goes on with the count of that level. -/
theorem pathName_succ {root : String} {level : Nat} : pathName root ls (level + 1) =
    pathName root ls level ++ "-" ++ countText (siblings (2 * level) ls) := by
  rw [pathName, List.range_succ, List.foldl_append]
  rfl

/-- Deeper lines do not change the way to the levels before. -/
theorem pathName_append {root : String} {levels : Nat}
    (hdeep : ∀ l ∈ between, 2 * levels ≤ l.depth) :
    pathName root (ls ++ between) levels = pathName root ls levels := by
  refine List.foldl_ext _ _ _ fun name level hlevel => ?_
  have hlt := List.mem_range.mp hlevel
  rw [siblings_append_of_deeper fun l hl => ?_]
  have hl := hdeep l hl
  omega

/-- Behind lines that end before a level is come to, its choices are numbered from one. -/
theorem pathName_of_within (root : String) (ls : List OutlineLine) (level : Nat) {k : Nat}
    {below : List OutlineLine} {p : Place} (hlast : ∀ l ∈ ls.getLast?, l.depth < 2 * level)
    (hp : (linesAt (2 * level) below)[k]? = some p) :
    ∃ between, below = between ++ p.1 :: p.2 ∧
      pathName root (ls ++ between ++ [p.1]) (level + 1) =
        pathName root ls level ++ "-" ++ countText (k + 1) := by
  obtain ⟨⟨between, hbelow, hdeep, hcount⟩, hchoice⟩ := getElem?_linesAt_eq_some_iff.mp hp
  have hdeep : ∀ l ∈ between ++ [p.1], 2 * level ≤ l.depth := by
    intro l hl
    rcases List.mem_append.mp hl with hl | hl
    · exact hdeep l hl
    · exact Nat.le_of_eq (List.mem_singleton.mp hl ▸ (isChoiceAt_iff.mp hchoice).2.symm)
  refine ⟨between, hbelow, ?_⟩
  rw [List.append_assoc, pathName_succ, pathName_append hdeep, siblings_append hdeep,
    siblings_eq_zero hlast, List.countP_append, hcount]
  simp [hchoice]

end Siblings

/-! ### Counters -/

namespace Cursor

variable {counters : List Nat} {depth level : Nat}

/-- Counters are made to reach to the level of a depth. -/
theorem lt_length_widen (counters : List Nat) (depth : Nat) :
    depth / 2 < (widen counters depth).length := by
  rw [widen, List.length_append, List.length_replicate]
  omega

/-- Counting on changes the counter of the level alone. -/
theorem getD_modify_widen :
    ((widen counters depth).modify (depth / 2) (· + 1))[level]?.getD 0 =
      if depth / 2 = level then counters[level]?.getD 0 + 1 else counters[level]?.getD 0 := by
  rw [List.getElem?_modify, ← getD_widen counters depth level]
  by_cases hlevel : depth / 2 = level
  · subst hlevel
    simp [List.getElem?_eq_getElem (lt_length_widen counters depth)]
  · simp [hlevel]

/-- Starting a count changes the counter of the level alone. -/
theorem getD_set_widen :
    ((widen counters depth).set (depth / 2) 1)[level]?.getD 0 =
      if depth / 2 = level then 1 else counters[level]?.getD 0 := by
  rw [List.getElem?_set, ← getD_widen counters depth level]
  by_cases hlevel : depth / 2 = level
  · subst hlevel
    simp [lt_length_widen]
  · simp [hlevel]

/-- A choice counts on its level, and starts anew where it is deeper than the line before. -/
theorem counter_advance {c c' : Cursor} {deadEnd : Bool}
    (h : c.advance depth deadEnd = (c', .ok ())) :
    c'.counters[level]?.getD 0 =
      if deadEnd = false ∧ depth = 2 * level then
        if depth ≤ c.depth then c.counters[level]?.getD 0 + 1 else 1
      else c.counters[level]?.getD 0 := by
  by_cases hquiet : deadEnd = true ∨ depth % 2 = 1
  · rw [(advance_eq_ok h).2.2.2 hquiet, getD_widen, if_neg]
    rintro ⟨hline, rfl⟩
    simp [hline] at hquiet
  · obtain ⟨hline, hodd⟩ := not_or.mp hquiet
    obtain rfl : deadEnd = false := Bool.eq_false_iff.mpr hline
    have heven : depth % 2 = 0 := by omega
    have hlevel : depth / 2 = level ↔ depth = 2 * level := by omega
    simp only [advance, Bool.false_eq_true, if_false, heven, if_true] at h
    simp only [true_and, ← hlevel]
    split at h
    · next hle =>
      cases h
      rw [getD_modify_widen, if_pos hle]
    · next hdeeper =>
      split at h
      · cases h
      · cases h
        rw [getD_set_widen, if_neg hdeeper]

end Cursor

/-! ### Names -/

/-- A choice has the name, or an answer is named after the choice that has it. -/
structure OutlineLine.NamedBy (l : OutlineLine) (path : String) : Prop where
  choice : l.depth % 2 = 0 → l.isDeadEnd = false → l.name = path
  answer : ∀ name, l.role = .answer name → name = path

/-- The cursor has counted the choices on the way to the last line, and each line is named by what
was counted when it was read. -/
structure Outline.Numbered (o : Outline) : Prop where
  counter : ∀ level : Nat, 2 * level ≤ o.cursor.depth →
    o.cursor.counters[level]?.getD 0 = siblings (2 * level) o.lines
  names : ∀ before l rest, o.lines = before ++ l :: rest →
    l.NamedBy (pathName o.root (before ++ [l]) (l.depth / 2 + 1))

namespace Outline

variable {o o' : Outline} {text : List Char} {store store' : LineStore}

/-- The line at the cursor is named by it. -/
theorem namedBy_lineAt {cursor : Cursor} {depth : Nat} {deadEnd : Bool} {content : List Char}
    {keys : List String} :
    (lineAt cursor depth deadEnd content keys).NamedBy (cursor.choiceName depth) where
  choice heven _ := by
    rw [depth_lineAt] at heven
    rw [name_lineAt, Cursor.lineName, if_neg (by omega), String.append_empty]
  answer name hrole := by
    unfold lineAt at hrole
    grind

/-- The counter of the level that a line has come to, and those above it, count choices. -/
theorem Numbered.counter_advance (h : o.Numbered) (hlast : ∀ l ∈ o.lines.getLast?, o.cursor.IsAt l)
    {cursor : Cursor} {depth : Nat} {deadEnd : Bool} {content : List Char} {keys : List String}
    (hmove : o.cursor.advance depth deadEnd = (cursor, .ok ())) {level : Nat}
    (hlevel : 2 * level ≤ depth) :
    cursor.counters[level]?.getD 0 =
      siblings (2 * level) (o.lines ++ [lineAt cursor depth deadEnd content keys]) := by
  have hle := (Cursor.advance_eq_ok hmove).2.2.1
  have hchoice : isChoiceAt (2 * level) (lineAt cursor depth deadEnd content keys) = true ↔
      deadEnd = false ∧ depth = 2 * level := by
    rw [isChoiceAt_iff, isDeadEnd_lineAt, depth_lineAt]
  simp only [Cursor.counter_advance hmove, siblings_concat, depth_lineAt, if_pos hlevel, hchoice]
  by_cases hcounts : deadEnd = false ∧ depth = 2 * level
  · rw [if_pos hcounts, if_pos hcounts]
    split
    · rw [h.counter level (by omega)]
    · -- The line before is shallower, so nothing of the level was counted since.
      rw [siblings_eq_zero fun l hl => ?_]
      have hdepth := (hlast l hl).depth
      omega
  · rw [if_neg hcounts, if_neg hcounts, Nat.add_zero, h.counter level]
    cases deadEnd with
    | true => exact hlevel.trans hle
    | false =>
      simp only [Bool.false_eq_true, if_false, true_and] at hle hcounts
      omega

/-- One more line is numbered by the count so far. -/
theorem Numbered.addLine (h : o.Numbered) (hlast : ∀ l ∈ o.lines.getLast?, o.cursor.IsAt l)
    (hadd : o.addLine text store = (o', store', .ok ())) : o'.Numbered := by
  obtain ⟨depth, deadEnd, content, cursor, keys, -, hmove, -, rfl⟩ := addLine_eq_ok hadd
  obtain ⟨hroot, hdepth, -⟩ := Cursor.advance_eq_ok hmove
  refine ⟨fun level hlevel => h.counter_advance hlast hmove (hdepth ▸ hlevel),
    fun before l rest hlines => ?_⟩
  rcases rest.eq_nil_or_concat with rfl | ⟨rest, last, rfl⟩
  · obtain ⟨rfl, rfl⟩ := List.append_singleton_inj.mp hlines
    have hpath : cursor.choiceName depth = pathName cursor.root
        (o.lines ++ [lineAt cursor depth deadEnd content keys]) (depth / 2 + 1) := by
      refine List.foldl_ext _ _ _ fun name level hlevel => ?_
      rw [h.counter_advance hlast hmove (by have := List.mem_range.mp hlevel; omega)]
    exact hpath ▸ namedBy_lineAt
  · rw [List.concat_eq_append, ← List.cons_append, ← List.append_assoc] at hlines
    obtain ⟨hlines, -⟩ := List.append_singleton_inj.mp hlines
    have hnamed := h.names before l rest hlines
    rwa [root, ← hroot] at hnamed

/-- Before the first line nothing is counted. -/
theorem numbered_start (root : String) : (Outline.start root).Numbered := by
  refine ⟨fun level hlevel => ?_, fun before l rest hlines => ?_⟩
  · obtain rfl : level = 0 := by
      have hle : 2 * level ≤ 0 := hlevel
      omega
    rfl
  · exact absurd hlines (by simp [start])

/-- The lines of a dialogue are numbered. -/
theorem Reads.numbered {root : String} {texts : List (List Char)} (h : Reads root texts o) :
    o.Numbered := by
  induction h with
  | start => exact numbered_start root
  | line hreads hadd ih => exact ih.addLine hreads.linked.last hadd

/-- The choices that a speaker offers are named after it and numbered from one. -/
theorem Numbered.name_of_offered (h : o.Numbered) (hlinked : o.Linked) {s : Speaker}
    (hs : s ∈ o.speakers) {name : String} (hname : o.Names name s) {k : Nat} {p : Place}
    (hp : (o.offered s)[k]? = some p) : p.1.name = name ++ "-" ++ countText (k + 1) := by
  obtain ⟨hplace, hline, heven⟩ := hlinked.of_mem_offers
    (List.mem_flatMap.mpr ⟨s, hs, List.mem_of_getElem? hp⟩)
  cases s with
  | opening =>
    obtain rfl : name = o.root := hname
    have hdepth := (mem_offered_opening_iff.mp (List.mem_of_getElem? hp)).2.2
    obtain ⟨between, hlines, hpath⟩ := pathName_of_within o.root [] 0 nofun hp
    rw [(h.names _ _ _ hlines).choice heven hline, hdepth]
    exact hpath
  | answer a =>
    have hrole : a.1.role = .answer name := hname
    have hover := (hlinked.over_of_mem_offered hs (List.mem_of_getElem? hp)).1
    have hdepth := hover.depth_eq hlinked.chain
    obtain ⟨before, hbefore⟩ := hover.place
    obtain ⟨level, hlevel⟩ : ∃ level, a.1.depth + 1 = 2 * level := ⟨(a.1.depth + 1) / 2, by omega⟩
    rw [offered, hlevel] at hp
    -- The answer is shallower than what is below it, so the count starts behind it.
    have hlast : ∀ l ∈ (before ++ [a.1]).getLast?, l.depth < 2 * level := by
      intro l hl
      rw [List.getLast?_concat] at hl
      obtain rfl := Option.some.inj hl
      omega
    obtain ⟨between, hbelow, hpath⟩ := pathName_of_within o.root _ level hlast hp
    have hlines : o.lines = (before ++ [a.1] ++ between) ++ p.1 :: p.2 := by
      rw [← hbefore, hbelow]
      simp
    have hanswer := (h.names before a.1 a.2 hbefore.symm).answer name hrole
    rw [show a.1.depth / 2 + 1 = level by omega] at hanswer
    rw [(h.names _ _ _ hlines).choice heven hline, show p.1.depth / 2 + 1 = level + 1 by omega,
      hpath, hanswer]

end Outline

/-- **Choices are numbered where they are offered.** In every node of a dialogue the choices lead to
the nodes named after it and their number, counted from one, and have these names with an `S` as
labels. All of these nodes are there. -/
theorem choices_numbered {root : String} {texts : List (List Char)} {o : Outline}
    {nodes : List (String × DialogueNode)} (hreads : Outline.Reads root texts o)
    (hnodes : o.nodes = .ok nodes) {node : String × DialogueNode} (hnode : node ∈ nodes) {k : Nat}
    {c : Choice} (hc : node.2.choices[k]? = some c) :
    c.next = node.1 ++ "-" ++ countText (k + 1) ∧ c.label = c.next ++ "S" ∧
      ∃ next, (c.next, next) ∈ nodes := by
  have hlinked := hreads.linked
  obtain ⟨-, -, rfl⟩ := Outline.nodes_eq_ok_iff.mp hnodes
  have hmem := List.mem_of_getElem? hc
  obtain ⟨s, hs, hname, hchoices⟩ := Outline.exists_speaker hnode (List.ne_nil_of_mem hmem)
  rw [hchoices, List.getElem?_map, Option.map_eq_some_iff] at hc
  obtain ⟨p, hp, rfl⟩ := hc
  refine ⟨hreads.numbered.name_of_offered hlinked hs hname hp, rfl, ?_⟩
  have hodd : ∀ l ∈ o.lines, ∀ name, l.role = .answer name → l.depth % 2 = 1 :=
    fun l hl name hrole => ((hlinked.answer l hl).mp ⟨name, hrole⟩).2
  obtain ⟨l, rest, next, hmade⟩ := Outline.exists_madeBy_of_chain hlinked.chain hodd hnode hmem
  exact ⟨next, hmade.mem⟩

/-- The second choice under the answer of a haggle. -/
theorem haggle_numbered : ∃ o nodes node c, Outline.Reads "TALK" Haggle.texts o ∧
    o.nodes = .ok nodes ∧ node ∈ nodes ∧ node.1 = "TALK-1" ∧ node.2.choices[1]? = some c ∧
    c.next = node.1 ++ "-" ++ countText 2 ∧ c.label = c.next ++ "S" ∧
    ∃ next, (c.next, next) ∈ nodes := by
  obtain ⟨o, nodes, hreads, hlines, hnodes⟩ := Haggle.exists_read
  obtain ⟨node, hnode, hname, c, hc⟩ : ∃ node ∈ (answerNodes Haggle.lines.tail).map Prod.fst,
      node.1 = "TALK-1" ∧ ∃ c, node.2.choices[1]? = some c :=
    ⟨_, List.mem_cons_self, rfl, _, rfl⟩
  have hmem : node ∈ nodes := by
    obtain ⟨-, -, rfl⟩ := Outline.nodes_eq_ok_iff.mp hnodes
    rw [← hlines] at hnode
    exact List.mem_cons_of_mem _ (List.mem_append_left _ hnode)
  exact ⟨o, nodes, node, c, hreads, hnodes, hmem, hname, hc,
    choices_numbered hreads hnodes hmem hc⟩

end StoryTape.Script
