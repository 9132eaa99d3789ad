import Mathlib.Data.List.Chain
import StoryTape.Proofs.CompilationSteps
import StoryTape.Proofs.CompiledTapes
import StoryTape.Proofs.KeyedLines
import StoryTape.Proofs.OutlineLines

/-!
# Where the choices of an outline lead

The nodes of an outline are never looked up while they are made: a choice leads to the node of its
own name. That the node is there rests on the way the lines follow each other. A line is at most one
deeper than the line before, so a choice is answered exactly when an answer stands right after it,
and that answer is named after the choice. A choice that is not answered makes a node of its own.
-/

namespace StoryTape.Script

open Text

/-! ### Names of lines -/

/-- A name is bare when nothing is dropped of its ending. -/
theorem isBare_append (s : String) {t : String} (ht : t.toList ≠ [])
    (h : (t.toList.any fun c => c == '%' || c == '#') = false) : IsBare (s ++ t) := by
  have hkept : ∀ c ∈ t.toList, (c == '%' || c == '#') = false :=
    fun c hc => Bool.eq_false_iff.mpr (List.any_eq_false.mp h c hc)
  rw [IsBare, bareKey, String.toList_append, dropEndWhile_append_eq_self _ ht hkept,
    ← String.toList_append, String.ofList_toList]

namespace Cursor

/-- The name of a choice ends in its number. -/
theorem isBare_choiceName (c : Cursor) (depth : Nat) : IsBare (c.choiceName depth) := by
  rw [choiceName, List.range_succ, List.foldl_append, List.foldl_cons, List.foldl_nil]
  refine isBare_append _ (t := countText _) ?_ (List.any_eq_false.mpr fun d hd => ?_)
  · rw [countText, String.toList_ofList]
    exact writeCount_ne_nil _
  · rw [countText, String.toList_ofList] at hd
    have hdigit := isDigit_of_mem_writeCount hd
    rw [Bool.or_eq_true, beq_iff_eq, beq_iff_eq]
    rintro (rfl | rfl) <;> exact absurd hdigit (by decide)

/-- Nothing is dropped from the end of a key under the name of a line. -/
theorem isBare_lineName (c : Cursor) (depth : Nat) : IsBare (c.lineName depth) := by
  rw [lineName]
  split
  · exact isBare_append _ (by decide) (by decide)
  · rw [String.append_empty]
    exact c.isBare_choiceName depth

/-- Counters that are added are zero. -/
theorem getD_widen (counters : List Nat) (depth level : Nat) :
    (widen counters depth)[level]?.getD 0 = counters[level]?.getD 0 := by
  rw [widen, List.getElem?_append]
  split
  · rfl
  · next hlevel =>
    rw [List.getElem?_eq_none (Nat.le_of_not_lt hlevel), List.getElem?_replicate]
    split <;> rfl

/-- A choice is named by the counters of its level and of those before it. -/
theorem choiceName_congr {c c' : Cursor} {depth depth' : Nat} (hroot : c.root = c'.root)
    (hlevel : depth / 2 = depth' / 2)
    (hcounters : ∀ level : Nat, c.counters[level]?.getD 0 = c'.counters[level]?.getD 0) :
    c.choiceName depth = c'.choiceName depth' := by
  rw [choiceName, choiceName, hroot, hlevel]
  simp only [hcounters]

end Cursor

/-! ### Lines as they are written -/

/-- What is stored of a line: the keys of its text, and of a choice the label, too. -/
structure OutlineLine.Backed (store : LineStore) (l : OutlineLine) : Prop where
  keys : ∀ key ∈ l.keys, store.Keyed key
  choice : l.depth % 2 = 0 → l.isDeadEnd = false →
    store.Keyed l.name ∧ store.Keyed (l.name ++ "S")
  answer : ∀ name, l.role = .answer name → l.depth % 2 = 1

/-- What is stored of a line stays when more is stored. -/
theorem OutlineLine.Backed.grows {store store' : LineStore} {l : OutlineLine} {n : Nat}
    (h : l.Backed store) (hgrows : store.Grows n store') : l.Backed store' where
  keys key hkey := (h.keys key hkey).grows hgrows
  choice heven hline := (h.choice heven hline).imp (·.grows hgrows) (·.grows hgrows)
  answer := h.answer

/-- How a line follows another: at most one deeper, a dead end no deeper, and what is one deeper
than a choice answers it. -/
structure Follows (a b : OutlineLine) : Prop where
  depth_le : b.depth ≤ a.depth + (if b.isDeadEnd then 0 else 1)
  answers : b.depth = a.depth + 1 → a.depth % 2 = 0 → a.isDeadEnd = false →
    b.role = .answer a.name

/-- The line that a cursor is at. -/
structure Cursor.IsAt (c : Cursor) (l : OutlineLine) : Prop where
  depth : l.depth = c.depth
  name : l.depth % 2 = 0 → l.isDeadEnd = false → l.name = c.choiceName l.depth

/-- An outline as it is written line by line. -/
structure Outline.Written (store : LineStore) (o : Outline) : Prop where
  backed : ∀ l ∈ o.lines, l.Backed store
  chain : o.lines.IsChain Follows
  last : ∀ l ∈ o.lines.getLast?, o.cursor.IsAt l

namespace Outline

variable {cursor : Cursor} {depth : Nat} {deadEnd : Bool} {content : List Char}
  {store store' : LineStore} {keys : List String}

/-- A line has the depth it was read at. -/
@[simp]
theorem depth_lineAt : (lineAt cursor depth deadEnd content keys).depth = depth := rfl

/-- A line has the name that the cursor gives. -/
@[simp]
theorem name_lineAt : (lineAt cursor depth deadEnd content keys).name = cursor.lineName depth := rfl

/-- A line is a dead end when it was read as one. -/
@[simp]
theorem isDeadEnd_lineAt : (lineAt cursor depth deadEnd content keys).isDeadEnd = deadEnd := by
  unfold lineAt OutlineLine.isDeadEnd
  grind

/-- A line at an odd depth answers the choice of the cursor. -/
theorem role_lineAt_of_odd (h : depth % 2 = 1) :
    (lineAt cursor depth false content keys).role = .answer (cursor.choiceName depth) := by
  simp [lineAt, h]

/-- A line that answers stands at an odd depth. -/
theorem odd_of_role_lineAt {name : String}
    (h : (lineAt cursor depth deadEnd content keys).role = .answer name) : depth % 2 = 1 := by
  unfold lineAt at h
  grind

/-- A line that is stored is backed by what is stored of it. -/
theorem backed_lineAt (h : storeLine cursor depth deadEnd content store = (store', .ok keys)) :
    (lineAt cursor depth deadEnd content keys).Backed store' := by
  have hname := cursor.isBare_lineName depth
  rw [storeLine] at h
  split at h
  · next hdead =>
    cases h
    refine ⟨nofun, fun _ hline => ?_, fun name => odd_of_role_lineAt⟩
    rw [isDeadEnd_lineAt, hdead] at hline
    cases hline
  · split at h
    · obtain ⟨label, full, store₁, labelKeys, -, hlabel, hfull⟩ := storeChoice_eq_ok h
      have hshort := LineStore.gives_add (isBare_append _ (by decide) (by decide)) hlabel
      have hlong := LineStore.gives_add hname hfull
      have hgrows := store₁.grows_add (cursor.lineName depth) full
      rw [hfull] at hgrows
      have hkeyed := LineStore.keyed_name (isBare_append _ (by decide) (by decide)) hshort.lines
      refine ⟨hlong.keyed, fun _ _ => ?_, fun name => odd_of_role_lineAt⟩
      exact ⟨LineStore.keyed_name hname hlong.lines, hkeyed.grows hgrows⟩
    · next hodd =>
      have hgives : LineStore.Gives (cursor.lineName depth) store' keys := by
        rw [storeAnswer] at h
        split at h
        · have hparts : (splitChar '|' content).map trim ≠ [] :=
            mt List.map_eq_nil_iff.mp (splitChar_ne_nil '|' content)
          exact LineStore.gives_addSequence hname hparts h
        · exact LineStore.gives_add hname h
      exact ⟨hgives.keyed, fun heven _ => absurd heven hodd, fun name => odd_of_role_lineAt⟩

/-- What the cursor has moved to follows what it was at. -/
theorem follows_lineAt {c : Cursor} {l : OutlineLine} (hat : c.IsAt l)
    (hmove : c.advance depth deadEnd = (cursor, .ok ())) :
    Follows l (lineAt cursor depth deadEnd content keys) := by
  obtain ⟨hroot, -, hle, hcounters⟩ := Cursor.advance_eq_ok hmove
  rw [← hat.depth] at hle
  -- An answer leaves the counters alone, so the name of its choice is made of them again.
  refine ⟨by rw [depth_lineAt, isDeadEnd_lineAt]; exact hle, fun hdeeper heven hline => ?_⟩
  rw [depth_lineAt] at hdeeper
  have hodd : depth % 2 = 1 := by omega
  have hdead : deadEnd = false := by
    cases deadEnd with
    | false => rfl
    | true =>
      simp only [if_true] at hle
      omega
  subst hdead
  have hsame : cursor.choiceName depth = c.choiceName l.depth := by
    refine Cursor.choiceName_congr hroot (by omega) fun level => ?_
    rw [hcounters (.inr hodd), Cursor.getD_widen]
  rw [role_lineAt_of_odd hodd, hsame, hat.name heven hline]

/-- A cursor that has moved on is at the line. -/
theorem isAt_lineAt {c : Cursor} (hmove : c.advance depth deadEnd = (cursor, .ok ())) :
    cursor.IsAt (lineAt cursor depth deadEnd content keys) where
  depth := by rw [depth_lineAt, (Cursor.advance_eq_ok hmove).2.1]
  name heven _ := by
    rw [depth_lineAt] at heven ⊢
    rw [name_lineAt, Cursor.lineName, if_neg (by omega), String.append_empty]

/-- A line that is added follows the last one, and the cursor is at it. -/
theorem chain_addLine {o o' : Outline} (hchain : o.lines.IsChain Follows)
    (hlast : ∀ l ∈ o.lines.getLast?, o.cursor.IsAt l) {line : List Char}
    (hadd : o.addLine line store = (o', store', .ok ())) :
    o'.lines.IsChain Follows ∧ ∀ l ∈ o'.lines.getLast?, o'.cursor.IsAt l := by
  obtain ⟨depth, deadEnd, content, cursor, keys, -, hmove, -, rfl⟩ := addLine_eq_ok hadd
  refine ⟨List.isChain_append.mpr ⟨hchain, .singleton _, fun l hl l' hl' => ?_⟩, fun l hl => ?_⟩
  · cases hl'
    exact follows_lineAt (hlast l hl) hmove
  · rw [List.getLast?_concat] at hl
    cases hl
    exact isAt_lineAt hmove

/-- A line that is added keeps the outline as it is written. -/
theorem Written.addLine {o o' : Outline} (h : o.Written store) {line : List Char}
    (hadd : o.addLine line store = (o', store', .ok ())) : o'.Written store' := by
  have hgrows := o.grows_addLine line store
  rw [hadd] at hgrows
  obtain ⟨hchain, hlast⟩ := chain_addLine h.chain h.last hadd
  refine ⟨fun l hl => ?_, hchain, hlast⟩
  obtain ⟨depth, deadEnd, content, cursor, keys, -, -, hstore, rfl⟩ := addLine_eq_ok hadd
  rcases List.mem_append.mp hl with hl | hl
  · exact (h.backed l hl).grows hgrows
  · exact List.mem_singleton.mp hl ▸ backed_lineAt hstore

/-- An outline is written without lines at first. -/
theorem written_start (root : String) (store : LineStore) : (Outline.start root).Written store :=
  ⟨nofun, .nil, nofun⟩

end Outline

/-! ### Nodes -/

section Nodes

variable {l : OutlineLine} {rest ls ls' : List OutlineLine} {depth : Nat}

/-- What stands behind a line is behind the first one. -/
theorem suffix_tail_of_suffix (h : l :: rest <:+ ls) : rest <:+ ls.tail := by
  obtain ⟨front, rfl⟩ := h
  cases front with
  | nil => exact List.suffix_refl _
  | cons first front => exact ⟨front ++ [l], by simp⟩

/-- The choices of a depth are among the lines, and no dead ends. -/
theorem suffix_of_mem_linesAt (h : (l, rest) ∈ linesAt depth ls) :
    l :: rest <:+ ls ∧ l.depth = depth ∧ l.isDeadEnd = false := by
  induction ls with
  | nil => cases h
  | cons first ls ih =>
    rw [linesAt] at h
    split at h
    · cases h
    · split at h
      · next hfirst =>
        rcases List.mem_cons.mp h with hsame | h
        · cases hsame
          simp only [Bool.and_eq_true, Bool.not_eq_true', beq_iff_eq] at hfirst
          exact ⟨List.suffix_refl _, hfirst.2, hfirst.1⟩
        · obtain ⟨hsuffix, hline⟩ := ih h
          exact ⟨hsuffix.trans (List.suffix_cons _ _), hline⟩
      · obtain ⟨hsuffix, hline⟩ := ih h
        exact ⟨hsuffix.trans (List.suffix_cons _ _), hline⟩

/-- A choice is answered by the line right after it or not at all. -/
theorem exists_answer (hchain : (l :: rest).IsChain Follows) (heven : l.depth % 2 = 0)
    (hline : l.isDeadEnd = false) (h : linesAt (l.depth + 1) rest ≠ []) :
    ∃ answer below, rest = answer :: below ∧ answer.depth = l.depth + 1 ∧
      answer.role = .answer l.name := by
  cases rest with
  | nil => exact absurd rfl h
  | cons next rest =>
    have hnot : ¬ next.depth < l.depth + 1 := fun hlt => h (by rw [linesAt, if_pos hlt])
    have hfollows := (List.isChain_cons_cons.mp hchain).1
    have hle := hfollows.depth_le
    have hdeeper : next.depth = l.depth + 1 := by split at hle <;> omega
    exact ⟨next, rest, rfl, hdeeper, hfollows.answers hdeeper heven hline⟩

/-- The answers of later lines come last among those of all lines. -/
theorem answerNodes_suffix (h : ls' <:+ ls) : answerNodes ls' <:+ answerNodes ls := by
  induction ls with
  | nil => exact List.suffix_nil.mp h ▸ List.suffix_refl _
  | cons first ls ih =>
    rcases List.suffix_cons_iff.mp h with rfl | h
    · exact List.suffix_refl _
    · rw [answerNodes]
      split
      · exact (ih h).trans (List.suffix_cons _ _)
      · exact ih h

/-- Every answer has a node under the name of its choice, which shows the answer's text and then the
choice's. Without choices below, it goes on where the dead end right after the answer leads. -/
theorem exists_node_of_answer {name : String} (h : l :: rest <:+ ls)
    (hrole : l.role = .answer name) :
    ∃ node, (name, node) ∈ (answerNodes ls).map Prod.fst ∧ node.text = l.keys ++ [name] ∧
      node.goto = if linesAt (l.depth + 1) rest = [] then
        (endingAt (l.depth - 1) rest.head?).bind Ending.goto else none := by
  have hnodes := List.map_subset Prod.fst (answerNodes_suffix h).subset
  rw [answerNodes, hrole] at hnodes
  exact ⟨_, hnodes List.mem_cons_self, rfl, by simp [choicesAt]⟩

/-- A node of an answer has the choices one deeper than the answer, and is listed with the nodes
that these end in. -/
theorem exists_answer_of_mem {node : NodeWithEndings} (h : node ∈ answerNodes ls) :
    ∃ l rest name, l :: rest <:+ ls ∧ l.role = .answer name ∧
      node.1.2.choices = (choicesAt (l.depth + 1) rest).map Prod.fst ∧
      node.2 = (choicesAt (l.depth + 1) rest).filterMap Prod.snd := by
  induction ls with
  | nil => cases h
  | cons first ls ih =>
    have later (h : node ∈ answerNodes ls) : ∃ l rest name, l :: rest <:+ first :: ls ∧
        l.role = .answer name ∧ node.1.2.choices = (choicesAt (l.depth + 1) rest).map Prod.fst ∧
        node.2 = (choicesAt (l.depth + 1) rest).filterMap Prod.snd := by
      obtain ⟨l, rest, name, hsuffix, hnode⟩ := ih h
      exact ⟨l, rest, name, hsuffix.trans (List.suffix_cons _ _), hnode⟩
    rw [answerNodes] at h
    split at h
    · next name hrole =>
      rcases List.mem_cons.mp h with rfl | h
      · exact ⟨first, ls, name, List.suffix_refl _, hrole, rfl, rfl⟩
      · exact later h
    · exact later h

/-- A choice without an answer ends in a node of its own, which shows its text. -/
theorem exists_ending_of_unanswered (h : linesAt (l.depth + 1) rest = []) :
    ∃ node, (choiceOf l rest).2 = some (l.name, node) ∧ node.text = l.keys := by
  refine ⟨{ text := l.keys, goto := (endingAt l.depth rest.head?).bind Ending.goto }, ?_, rfl⟩
  simp [choiceOf, h]

/-- The node that ends a choice offers none. -/
theorem choices_of_ending {node : String × DialogueNode} (h : (choiceOf l rest).2 = some node) :
    node.2.choices = [] := by
  by_cases hanswered : linesAt (l.depth + 1) rest = []
  · simp only [choiceOf, hanswered, List.isEmpty_nil, Bool.not_true, Bool.false_eq_true, if_false,
      Option.some.injEq] at h
    exact h ▸ rfl
  · simp [choiceOf, hanswered] at h

/-- What the node shows that the choice of a line leads to, the lines after it being `rest`. -/
inductive OutlineLine.LeadsTo (l : OutlineLine) (rest : List OutlineLine) (next : DialogueNode) :
    Prop
  /-- Nobody answers: it shows the text of the choice. -/
  | ending (hnone : linesAt (l.depth + 1) rest = []) (htext : next.text = l.keys)
  /-- The answer stands right after the choice: it shows the name of the choice, then the text of
  the answer. -/
  | answer {answer : OutlineLine} {below : List OutlineLine} (hrest : rest = answer :: below)
      (hdepth : answer.depth = l.depth + 1) (hrole : answer.role = .answer l.name)
      (htext : next.text = answer.keys ++ [l.name])

/-- A choice of the given lines, made by the line `l`, and what it leads to among the nodes. -/
structure MadeBy (ls : List OutlineLine) (nodes : List (String × DialogueNode)) (c : Choice)
    (l : OutlineLine) (rest : List OutlineLine) (next : DialogueNode) : Prop where
  suffix : l :: rest <:+ ls
  even : l.depth % 2 = 0
  line : l.isDeadEnd = false
  label : c.label = l.name ++ "S"
  name : c.next = l.name
  mem : (c.next, next) ∈ nodes
  leads : l.LeadsTo rest next

/-- Among nodes that have those of the answers and those that the choices of one depth end in, each
of these choices leads to a node of its own name. -/
theorem exists_madeBy_of_choicesAt (hchain : ls.IsChain Follows) (heven : depth % 2 = 0)
    {nodes : List (String × DialogueNode)}
    (hendings : (choicesAt depth ls).filterMap Prod.snd ⊆ nodes)
    (hanswers : (answerNodes ls.tail).map Prod.fst ⊆ nodes) {c : Choice}
    (hc : c ∈ (choicesAt depth ls).map Prod.fst) :
    ∃ l rest next, MadeBy ls nodes c l rest next := by
  obtain ⟨choice, hchoice, rfl⟩ := List.mem_map.mp hc
  obtain ⟨⟨l, rest⟩, hl, hsame⟩ := List.mem_map.mp hchoice
  obtain rfl : choiceOf l rest = choice := hsame
  have hnext : (choiceOf l rest).1.next = l.name := rfl
  obtain ⟨hsuffix, hdepth, hline⟩ := suffix_of_mem_linesAt hl
  refine ⟨l, rest, ?_⟩
  -- The lines below the choice make a node of its own, or they open with its answer.
  by_cases hanswered : linesAt (l.depth + 1) rest = []
  · obtain ⟨node, hnode, htext⟩ := exists_ending_of_unanswered hanswered
    have hmem := hendings (List.mem_filterMap.mpr ⟨choiceOf l rest, hchoice, hnode⟩)
    exact ⟨node, hsuffix, hdepth ▸ heven, hline, rfl, rfl, hmem, .ending hanswered htext⟩
  · obtain ⟨answer, below, hrest, hdeeper, hrole⟩ :=
      exists_answer (hchain.suffix hsuffix) (hdepth ▸ heven) hline hanswered
    have hanswer : answer :: below <:+ ls.tail := hrest ▸ suffix_tail_of_suffix hsuffix
    obtain ⟨node, hnode, htext, -⟩ := exists_node_of_answer hanswer hrole
    have hleads : l.LeadsTo rest node := .answer hrest hdeeper hrole htext
    exact ⟨node, hsuffix, hdepth ▸ heven, hline, rfl, rfl, hanswers hnode, hleads⟩

/-- A choice of later lines is one of all lines. -/
theorem MadeBy.of_suffix {nodes : List (String × DialogueNode)} {c : Choice} {next : DialogueNode}
    (h : MadeBy ls' nodes c l rest next) (hsuffix : ls' <:+ ls) : MadeBy ls nodes c l rest next :=
  { h with suffix := h.suffix.trans hsuffix }

end Nodes

namespace Outline

variable {store : LineStore} {o : Outline}

/-- Every choice of a node of an outline is made by a line and leads to a node of the outline. -/
theorem exists_madeBy_of_chain (hchain : o.lines.IsChain Follows)
    (hodd : ∀ l ∈ o.lines, ∀ name, l.role = .answer name → l.depth % 2 = 1)
    {node : String × DialogueNode} (hnode : node ∈ o.nodesOf) {c : Choice}
    (hc : c ∈ node.2.choices) : ∃ l rest next, MadeBy o.lines o.nodesOf c l rest next := by
  have hanswers : (answerNodes o.lines.tail).map Prod.fst ⊆ o.nodesOf :=
    fun n hn => List.mem_cons_of_mem _ (List.mem_append_left _ hn)
  -- Only the root and the answers have choices.
  have ending {depth : Nat} {ls : List OutlineLine}
      (hnode : node ∈ (choicesAt depth ls).filterMap Prod.snd) : False := by
    obtain ⟨choice, hchoice, hending⟩ := List.mem_filterMap.mp hnode
    obtain ⟨⟨l, rest⟩, -, rfl⟩ := List.mem_map.mp hchoice
    rw [choices_of_ending hending] at hc
    cases hc
  simp only [nodesOf, List.cons_append, List.mem_cons, List.mem_append] at hnode
  rcases hnode with rfl | hnode | hnode | hnode
  · refine exists_madeBy_of_choicesAt hchain (Nat.zero_mod 2) (fun n hn => ?_) hanswers hc
    exact List.mem_cons_of_mem _ (List.mem_append_right _ (List.mem_append_left _ hn))
  · obtain ⟨answer, hanswer, rfl⟩ := List.mem_map.mp hnode
    obtain ⟨l, rest, name, hsuffix, hrole, hchoices, hendings⟩ := exists_answer_of_mem hanswer
    have hlines : l :: rest <:+ o.lines := hsuffix.trans (List.tail_suffix _)
    have hrest : rest <:+ o.lines := (List.suffix_cons l rest).trans hlines
    have htail : rest.tail <:+ o.lines.tail :=
      (List.tail_suffix rest).trans ((List.suffix_cons l rest).trans hsuffix)
    have hodd := hodd l (hlines.subset List.mem_cons_self) name hrole
    rw [hchoices] at hc
    obtain ⟨l', rest', next, hmade⟩ : ∃ l' rest' next, MadeBy rest o.nodesOf c l' rest' next := by
      refine exists_madeBy_of_choicesAt (hchain.suffix hrest) (by omega) (fun n hn => ?_)
        (fun n hn => hanswers ?_) hc
      · have hflat := List.mem_flatMap.mpr ⟨answer, hanswer, hendings ▸ hn⟩
        exact List.mem_cons_of_mem _ (List.mem_append_right _ (List.mem_append_right _ hflat))
      · exact List.map_subset Prod.fst (answerNodes_suffix htail).subset hn
    exact ⟨l', rest', next, hmade.of_suffix hrest⟩
  · exact (ending hnode).elim
  · obtain ⟨answer, hanswer, hmem⟩ := List.mem_flatMap.mp hnode
    obtain ⟨l, rest, name, -, -, -, hendings⟩ := exists_answer_of_mem hanswer
    exact (ending (hendings ▸ hmem)).elim

/-- Every choice of a node is made by a line and leads to a node. -/
theorem Written.exists_madeBy (h : o.Written store) {node : String × DialogueNode}
    (hnode : node ∈ o.nodesOf) {c : Choice} (hc : c ∈ node.2.choices) :
    ∃ l rest next, MadeBy o.lines o.nodesOf c l rest next :=
  exists_madeBy_of_chain h.chain (fun l hl => (h.backed l hl).answer) hnode hc

/-- Its label is stored, and so are the texts of the node it leads to. -/
theorem Written.leads (h : o.Written store) {node : String × DialogueNode}
    (hnode : node ∈ o.nodesOf) {c : Choice} (hc : c ∈ node.2.choices) :
    store.Keyed c.label ∧ ∃ next, (c.next, next) ∈ o.nodesOf ∧
      ∀ key ∈ next.text, store.Keyed key := by
  obtain ⟨l, rest, next, hmade⟩ := h.exists_madeBy hnode hc
  have hmem : l ∈ o.lines := hmade.suffix.subset List.mem_cons_self
  obtain ⟨hname, hlabel⟩ := (h.backed l hmem).choice hmade.even hmade.line
  refine ⟨hmade.label ▸ hlabel, next, hmade.mem, fun key hkey => ?_⟩
  cases hmade.leads with
  | ending _ htext => exact (h.backed l hmem).keys key (htext ▸ hkey)
  | @answer answer below hrest _ _ htext =>
    rw [htext, List.mem_append, List.mem_singleton] at hkey
    rcases hkey with hkey | rfl
    · have hanswer : answer ∈ o.lines := hmade.suffix.subset (by simp [hrest])
      exact (h.backed answer hanswer).keys key hkey
    · exact hname

end Outline

end StoryTape.Script
