import StoryTape.Script.Compile
import StoryTape.Proofs.Runs

/-!
# What each line of a script does

A compilation is taken apart line by line. For every sort of line, for closing a dialogue and for
sealing a tape, one statement says exactly when the step succeeds and what comes of it. Whatever is
to be shown of compilations is shown of these steps.
-/

namespace StoryTape.Script

open Text

/-- Store the text that a rule line carries. -/
def storeRuleText (store : LineStore) : Option RuleText → Checked LineStore
  | none => .ok store
  | some text => Compilation.storeSentences store text.name text.sentences

/-- Store the text of a text line: one sentence is a text, several are a sequence. -/
def storeTextLine (store : LineStore) (line : TextLine) : LineStore × Checked (List String) :=
  match line.sentences with
  | [sentence] => store.add line.name sentence.toList
  | sentences =>
    store.addSequence line.name (sentences.map String.toList) (if line.once then .once else .loop)

/-- Nodes have new names: none is among the names so far or those of the nodes before it. -/
def NewNames (names : List String) : List (String × DialogueNode) → Prop
  | [] => True
  | node :: nodes => node.1 ∉ names ∧ NewNames (names ++ [node.1]) nodes

/-- A dictionary with the given nodes added. -/
def insertNodes (routes : Dict DialogueNode) (nodes : List (String × DialogueNode)) :
    Dict DialogueNode :=
  nodes.foldl (fun routes node => routes.insert node.1 node.2) routes

/-- An index with the identifiers of the choices of the given nodes. -/
def indexNodes (index : TagIndex) (nodes : List (String × DialogueNode)) : TagIndex :=
  nodes.foldl (fun index node => node.2.choices.foldl TagIndex.addChoice index) index

/-- The nodes of a dialogue: the root, the answered choices and the choices that end it. -/
def Outline.nodesOf (o : Outline) : List (String × DialogueNode) :=
  (o.root, { text := [o.root], choices := (choicesAt 0 o.lines).map Prod.fst }) ::
    (answerNodes o.lines.tail).map Prod.fst ++
    ((choicesAt 0 o.lines).filterMap Prod.snd ++ (answerNodes o.lines.tail).flatMap Prod.snd)

/-- A dialogue has nodes when it opens at depth zero and has a choice there. -/
theorem Outline.nodes_eq_ok_iff {o : Outline} {nodes : List (String × DialogueNode)} :
    o.nodes = .ok nodes ↔
      choicesAt 0 o.lines ≠ [] ∧ (∃ l rest, o.lines = l :: rest ∧ l.depth = 0) ∧
        nodes = o.nodesOf := by
  obtain ⟨cursor, lines⟩ := o
  cases lines with
  | nil => simp [Outline.nodes]
  | cons l rest =>
    simp only [Outline.nodes, List.cons.injEq, Bool.or_eq_true, List.isEmpty_iff,
      Bool.not_eq_true', beq_eq_false_iff_ne]
    constructor
    · intro h
      split at h
      · cases h
      · next hopens =>
        rw [not_or, Decidable.not_not] at hopens
        exact ⟨hopens.1, ⟨l, rest, ⟨rfl, rfl⟩, hopens.2⟩, (Except.ok.inj h).symm⟩
    · rintro ⟨htop, ⟨_, _, ⟨rfl, rfl⟩, hdepth⟩, rfl⟩
      rw [if_neg (not_or.mpr ⟨htop, Decidable.not_not.mpr hdepth⟩)]
      rfl

namespace Compilation

variable {c c' : Compilation} {l : ScriptLine}

/-- A tape is there to be added to when one is open. -/
theorem draftFor_eq_ok_iff {what : String} {d : Draft} :
    c.draftFor what = .ok d ↔ c.draft = some d := by
  rw [draftFor]
  cases c.draft <;> simp

/-! ### Dialogues -/

/-- The compilation with the nodes of a dialogue added to the open tape. -/
def withNodes (c : Compilation) (d : Draft) (nodes : List (String × DialogueNode)) :
    Compilation :=
  { c with
    routeNames := c.routeNames ++ nodes.map Prod.fst
    index := indexNodes c.index nodes
    draft := some { d with routes := insertNodes d.routes nodes } }

/-- A node is added when its name is not taken, and nothing else changes. -/
theorem addNode_eq_ok_iff {node : String × DialogueNode} {d : Draft} (hd : c.draft = some d) :
    c.addNode node = .ok c' ↔ node.1 ∉ c.routeNames ∧ c' = c.withNodes d [node] := by
  unfold addNode
  simp only [bind_eq_ok_iff, draftFor_eq_ok_iff, hd, Option.some.injEq, exists_eq_left']
  by_cases hnew : node.1 ∈ c.routeNames
  · simp [hnew, throw, throwThe, MonadExceptOf.throw, Bind.bind, Except.bind]
  · simp [hnew, Pure.pure, Except.pure, eq_comm, withNodes, indexNodes, insertNodes]

/-- Nodes are added one after the other exactly when their names are new. -/
theorem addNodes_eq_ok_iff {nodes : List (String × DialogueNode)} {d : Draft}
    (hd : c.draft = some d) :
    nodes.foldlM addNode c = .ok c' ↔ NewNames c.routeNames nodes ∧ c' = c.withNodes d nodes := by
  induction nodes generalizing c d with
  | nil =>
    have hsame : c.withNodes d [] = c := by
      simp [withNodes, indexNodes, insertNodes, ← hd]
    simp [NewNames, Pure.pure, Except.pure, hsame, eq_comm]
  | cons node nodes ih =>
    have hrest : (c.withNodes d [node]).withNodes { d with routes := insertNodes d.routes [node] }
        nodes = c.withNodes d (node :: nodes) := by
      simp [withNodes, indexNodes, insertNodes]
    rw [List.foldlM_cons, bind_eq_ok_iff]
    simp only [addNode_eq_ok_iff hd]
    constructor
    · rintro ⟨_, ⟨hnew, rfl⟩, hadd⟩
      obtain ⟨hnews, rfl⟩ := (ih rfl).mp hadd
      exact ⟨⟨hnew, hnews⟩, hrest⟩
    · rintro ⟨⟨hnew, hnews⟩, rfl⟩
      exact ⟨_, ⟨hnew, rfl⟩, (ih rfl).mpr ⟨hnews, hrest.symm⟩⟩

/-- A dialogue is added exactly when it has nodes, all of them with new names. -/
theorem addOutline_eq_ok_iff {o : Outline} :
    c.addOutline o = .ok c' ↔
      ∃ d nodes, c.draft = some d ∧ o.nodes = .ok nodes ∧ NewNames c.routeNames nodes ∧
        c' = c.withNodes d nodes := by
  constructor
  · intro h
    obtain ⟨_, hfor, h⟩ := bind_eq_ok_iff.mp h
    cases hdraft : c.draft with
    | none =>
      rw [draftFor, hdraft] at hfor
      cases hfor
    | some d =>
      split at h
      · cases h
      · obtain ⟨nodes, hnodes, hadd⟩ := bind_eq_ok_iff.mp h
        exact ⟨d, nodes, rfl, hnodes, (addNodes_eq_ok_iff hdraft).mp hadd⟩
  · rintro ⟨d, nodes, hdraft, hnodes, hnew, rfl⟩
    have hroot : ¬ c.routeNames.contains o.root = true := by
      obtain ⟨-, -, rfl⟩ := Outline.nodes_eq_ok_iff.mp hnodes
      simpa using hnew.1
    have hfor : discard (c.draftFor "route") = (.ok () : Checked Unit) := by
      rw [draftFor, hdraft]
      rfl
    refine bind_eq_ok_iff.mpr ⟨(), hfor, ?_⟩
    rw [if_neg hroot]
    exact bind_eq_ok_iff.mpr ⟨nodes, hnodes, (addNodes_eq_ok_iff hdraft).mpr ⟨hnew, rfl⟩⟩

/-- An open dialogue is closed exactly when its nodes can be added to the open tape. -/
theorem closeOutline_eq_ok_iff :
    c.closeOutline = .ok c' ↔
      (c.outline = none ∧ c' = c) ∨
      ∃ start o d nodes, c.outline = some (start, o) ∧ c.draft = some d ∧ o.nodes = .ok nodes ∧
        NewNames c.routeNames nodes ∧ c' = { c with outline := none }.withNodes d nodes := by
  unfold closeOutline
  cases hopen : c.outline with
  | none => simp [eq_comm]
  | some opened =>
    obtain ⟨start, o⟩ := opened
    refine mapError_eq_ok_iff.trans (addOutline_eq_ok_iff.trans ?_)
    constructor
    · rintro ⟨d, nodes, hadded⟩
      exact .inr ⟨start, o, d, nodes, rfl, hadded⟩
    · rintro (⟨hnone, -⟩ | ⟨_, _, d, nodes, hsame, hadded⟩)
      · cases hnone
      · cases hsame
        exact ⟨d, nodes, hadded⟩

/-! ### Tapes -/

/-- Sealing moves the open tape to the sealed ones. -/
theorem sealDraft_eq_ok_iff :
    c.sealDraft = .ok c' ↔
      (c.draft = none ∧ c' = c) ∨
      ∃ d t, c.draft = some d ∧ d.seal = .ok t ∧
        c' = { c with tapes := c.tapes ++ [t], draft := none } := by
  unfold sealDraft
  cases hd : c.draft with
  | none => simp [eq_comm]
  | some d =>
    simp only [bind_eq_ok_iff, pure_eq_ok_iff, reduceCtorEq, false_and, Option.some.injEq,
      false_or, exists_eq_left', @eq_comm _ _ c', exists_and_left]

/-- A state line seals the tape before it and opens one whose label is new. -/
theorem readState_eq_ok_iff :
    c.readState l = .ok c' ↔
      ∃ c₁ line, c.sealDraft = .ok c₁ ∧ parseStateLine (String.ofList l.content) = .ok line ∧
        lowerText line.label ∉ c₁.labels ∧
        c' = { c₁ with
          labels := c₁.labels ++ [lowerText line.label]
          index := c₁.index.addWorld line.world
          draft := some { label := line.label, world := line.world } }.note l.number
            (.state line.label) := by
  unfold readState
  simp only [bind_eq_ok_iff, ← exists_and_left]
  refine exists_congr fun c₁ => exists_congr fun line => ?_
  refine and_congr_right fun _ => and_congr_right fun _ => ?_
  by_cases hnew : lowerText line.label ∈ c₁.labels
  · simp [hnew, throw, throwThe, MonadExceptOf.throw, Bind.bind, Except.bind]
  · simp [hnew, Pure.pure, Except.pure, eq_comm]

/-- A rule line is read when a tape is open, the line parses and its text can be stored. -/
theorem readRule_eq_ok_iff :
    c.readRule l = .ok c' ↔
      ∃ d line store, c.draft = some d ∧ parseRuleLine (String.ofList l.content) = .ok line ∧
        storeRuleText d.store line.text = .ok store ∧
        c' = { c with
          index := c.index.addRule line.rule
          draft := some { d with store, rules := d.rules ++ [line.rule] } }.note l.number
            (.rule line.rule) := by
  unfold readRule
  simp only [bind_eq_ok_iff, ← exists_and_left, draftFor_eq_ok_iff]
  refine exists_congr fun d => exists_congr fun line => ?_
  cases htext : line.text with
  | none => simp [storeRuleText, Pure.pure, Except.pure, eq_comm, Bind.bind, Except.bind]
  | some text =>
    simp only [storeRuleText, bind_eq_ok_iff, pure_eq_ok_iff, exists_and_left, @eq_comm _ _ c']

/-- The dialogue that a line belongs to: the open one, or one that starts on it. -/
def dialogueFor (c : Compilation) (d : Draft) (number : Nat) : Compilation × Nat × Outline :=
  match c.outline with
  | some (start, o) => (c, start, o)
  | none =>
    (c.note number (.route (dialogueRoot d)), number, Outline.start (dialogueRoot d))

/-- Starting a dialogue seals no tape. -/
theorem tapes_dialogueFor {d : Draft} {number start : Nat} {o : Outline}
    (h : c.dialogueFor d number = (c', start, o)) : c'.tapes = c.tapes := by
  unfold dialogueFor at h
  split at h <;> cases h <;> rfl

/-- A line of dialogue is read when a tape is open and the dialogue it belongs to takes it. -/
theorem readRoute_eq_ok_iff :
    c.readRoute l = .ok c' ↔
      ∃ d c₁ start o o' store, c.draft = some d ∧
        c.dialogueFor d l.number = (c₁, start, o) ∧
        o.addLine l.content d.store = (o', store, .ok ()) ∧
        c' = { c₁ with outline := some (start, o'), draft := some { d with store } } := by
  constructor
  · intro h
    obtain ⟨d, hd, h⟩ := bind_eq_ok_iff.mp h
    split at h
    next c₁ start o hopen =>
    split at h
    · cases h
    · next o' store _ hadd =>
      cases h
      exact ⟨d, c₁, start, o, o', store, draftFor_eq_ok_iff.mp hd, hopen, hadd, rfl⟩
  · rintro ⟨d, c₁, start, o, o', store, hd, hopen, hadd, rfl⟩
    refine bind_eq_ok_iff.mpr ⟨d, draftFor_eq_ok_iff.mpr hd, ?_⟩
    split
    next c₂ start₂ o₂ hopen₂ =>
    obtain ⟨rfl, rfl, rfl⟩ : c₂ = c₁ ∧ start₂ = start ∧ o₂ = o := by
      have hsame : (c₂, start₂, o₂) = (c₁, start, o) := hopen₂.symm.trans hopen
      simpa only [Prod.mk.injEq] using hsame
    rw [hadd]
    rfl

/-- A text line is read when a tape is open, the line parses and its text can be stored. -/
theorem readText_eq_ok_iff :
    c.readText l = .ok c' ↔
      ∃ d line store keys, c.draft = some d ∧
        parseTextLine (String.ofList l.content) = .ok line ∧
        storeTextLine d.store line = (store, .ok keys) ∧
        c' = { c with draft := some { d with store } }.note l.number (.text keys) := by
  unfold readText
  simp only [bind_eq_ok_iff, ← exists_and_left, draftFor_eq_ok_iff]
  constructor
  · rintro ⟨d, line, hd, hline, h⟩
    split at h
    · cases h
    · next store keys hstored =>
      cases h
      exact ⟨d, line, store, keys, hd, hline, hstored, rfl⟩
  · rintro ⟨d, line, store, keys, hd, hline, hstored, rfl⟩
    refine ⟨d, line, hd, hline, ?_⟩
    split
    · next e hfailed => cases hstored.symm.trans hfailed
    · next store' keys' hstored' =>
      cases hstored.symm.trans hstored'
      rfl

/-- A line of dialogue goes on with the dialogue that is open. -/
theorem readLine_route (hkind : l.kind = .route) :
    c.readLine l = .ok c' ↔ c.readRoute l = .ok c' := by
  unfold readLine
  rw [if_pos hkind]
  refine mapError_eq_ok_iff.trans ?_
  rw [readContent, hkind]

/-- Any other line closes it. -/
theorem readLine_of_ne_route (hkind : l.kind ≠ .route) :
    c.readLine l = .ok c' ↔ ∃ c₁, c.closeOutline = .ok c₁ ∧ c₁.readContent l = .ok c' := by
  unfold readLine
  rw [if_neg hkind]
  exact bind_eq_ok_iff.trans (exists_congr fun _ => and_congr_right fun _ => mapError_eq_ok_iff)

/-- Either way the content of the line is read, of a line of dialogue at once. -/
theorem readLine_cases (h : c.readLine l = .ok c') :
    (l.kind = .route ∧ c.readContent l = .ok c') ∨
      (l.kind ≠ .route ∧ ∃ c₁, c.closeOutline = .ok c₁ ∧ c₁.readContent l = .ok c') := by
  by_cases hkind : l.kind = .route
  · refine .inl ⟨hkind, ?_⟩
    rw [readContent, hkind]
    exact (readLine_route hkind).mp h
  · exact .inr ⟨hkind, (readLine_of_ne_route hkind).mp h⟩

/-- Once the dialogue is closed there is none open. -/
theorem outline_closeOutline (h : c.closeOutline = .ok c') : c'.outline = none := by
  rcases closeOutline_eq_ok_iff.mp h with ⟨hnone, rfl⟩ | ⟨_, _, _, _, -, -, -, -, rfl⟩
  · exact hnone
  · rfl

/-- Once the tape is sealed there is none open. -/
theorem draft_sealDraft (h : c.sealDraft = .ok c') : c'.draft = none := by
  rcases sealDraft_eq_ok_iff.mp h with ⟨hnone, rfl⟩ | ⟨_, _, -, -, rfl⟩
  · exact hnone
  · rfl

/-- Sealing a tape leaves the open dialogue alone. -/
theorem outline_sealDraft (h : c.sealDraft = .ok c') : c'.outline = c.outline := by
  rcases sealDraft_eq_ok_iff.mp h with ⟨-, rfl⟩ | ⟨_, _, -, -, rfl⟩ <;> rfl

/-- Closing a dialogue adds no part. -/
theorem parts_closeOutline (h : c.closeOutline = .ok c') : c'.parts = c.parts := by
  rcases closeOutline_eq_ok_iff.mp h with ⟨-, rfl⟩ | ⟨_, _, _, _, -, -, -, -, rfl⟩ <;> rfl

/-- Sealing a tape adds no part. -/
theorem parts_sealDraft (h : c.sealDraft = .ok c') : c'.parts = c.parts := by
  rcases sealDraft_eq_ok_iff.mp h with ⟨-, rfl⟩ | ⟨_, _, -, -, rfl⟩ <;> rfl

/-- What a line becomes, if anything, is noted under its number. -/
theorem parts_readContent (h : c.readContent l = .ok c') :
    c'.parts = c.parts ∨ ∃ part, c'.parts = c.parts ++ [(l.number, part)] := by
  rw [readContent] at h
  cases hsort : l.kind <;> simp only [hsort] at h
  case state =>
    obtain ⟨c₁, line, hseal, -, -, rfl⟩ := readState_eq_ok_iff.mp h
    have hparts : c₁.parts = c.parts := parts_sealDraft hseal
    exact .inr ⟨.state line.label, hparts ▸ rfl⟩
  case rule =>
    obtain ⟨_, line, _, -, -, -, rfl⟩ := readRule_eq_ok_iff.mp h
    exact .inr ⟨.rule line.rule, rfl⟩
  case route =>
    obtain ⟨d, c₁, _, _, _, _, -, hopen, -, rfl⟩ := readRoute_eq_ok_iff.mp h
    unfold dialogueFor at hopen
    split at hopen <;> cases hopen
    · exact .inl rfl
    · exact .inr ⟨.route (dialogueRoot d), rfl⟩
  case text =>
    obtain ⟨_, _, _, keys, -, -, -, rfl⟩ := readText_eq_ok_iff.mp h
    exact .inr ⟨.text keys, rfl⟩
  case comment =>
    cases h
    exact .inr ⟨_, rfl⟩
  all_goals
    cases h
    exact .inl rfl

/-- Only lines of dialogue change which one is open. -/
theorem outline_readContent (hkind : l.kind ≠ .route) (h : c.readContent l = .ok c') :
    c'.outline = c.outline := by
  rw [readContent] at h
  cases hsort : l.kind <;> simp only [hsort] at h
  case state =>
    obtain ⟨c₁, _, hseal, -, -, rfl⟩ := readState_eq_ok_iff.mp h
    change c₁.outline = c.outline
    exact outline_sealDraft hseal
  case rule =>
    obtain ⟨_, _, _, -, -, -, rfl⟩ := readRule_eq_ok_iff.mp h
    rfl
  case route => exact absurd hsort hkind
  case text =>
    obtain ⟨_, _, _, _, -, -, -, rfl⟩ := readText_eq_ok_iff.mp h
    rfl
  all_goals
    cases h
    rfl

/-- What holds when a dialogue is closed and after the content of every line holds after all
lines. -/
theorem readLines_induction {P : Compilation → Prop} {ls : List ScriptLine}
    (h : ls.foldlM readLine c = .ok c') (hc : P c)
    (close : ∀ c c', P c → c.closeOutline = .ok c' → P c')
    (content : ∀ c c' l, P c → (l.kind = .route ∨ c.outline = none) →
      c.readContent l = .ok c' → P c') : P c' := by
  refine foldlM_ok_induction h hc fun l _ c c' hc hread => ?_
  rcases readLine_cases hread with ⟨hkind, hcontent⟩ | ⟨-, c₁, hclose, hcontent⟩
  · exact content c c' l hc (.inl hkind) hcontent
  · exact content c₁ c' l (close c c₁ hc hclose) (.inr (outline_closeOutline hclose)) hcontent

/-- A script is finished by closing the dialogue and then sealing the tape. -/
theorem finish_eq_ok_iff {script : CompiledScript} :
    c.finish = .ok script ↔
      ∃ c₁ c₂, c.closeOutline = .ok c₁ ∧ c₁.sealDraft = .ok c₂ ∧
        script = ⟨c₂.tapes, c₂.parts, c₂.index⟩ := by
  unfold finish
  simp only [bind_eq_ok_iff, pure_eq_ok_iff, exists_and_left, @eq_comm _ _ script]

end Compilation

/-- A script compiles when it can be cut into lines, each can be read, and the end can be
finished. -/
theorem compile_eq_ok_iff {source : String} {script : CompiledScript} :
    compile source = .ok script ↔
      ∃ lines c, splitScript source = .ok lines ∧
        lines.foldlM Compilation.readLine {} = .ok c ∧ c.finish = .ok script := by
  unfold compile
  simp only [bind_eq_ok_iff, exists_and_left]

end StoryTape.Script
