import StoryTape.Proofs.Dialogues
import StoryTape.Proofs.InertLines
import StoryTape.Proofs.OutlinePlaces

/-!
# Blocks of dialogue

Lines of dialogue that follow each other in a script are read into one outline, which the line after
them closes. Its nodes are added to the open tape under names that are new, and no later line takes
them away, so some tape of the compiled script has all nodes of the block.
-/

namespace StoryTape.Script

/-- Lines of dialogue in a row, the lines next to them being none. -/
structure IsBlock (lines before block after : List ScriptLine) : Prop where
  lines_eq : lines = before ++ (block ++ after)
  ne_nil : block ≠ []
  route : ∀ l ∈ block, l.kind = .route
  before_ne : ∀ l ∈ before.getLast?, l.kind ≠ .route
  after_ne : ∀ l ∈ after.head?, l.kind ≠ .route

namespace Compilation

variable {c c' c₁ : Compilation} {l : ScriptLine} {nodes : List (String × DialogueNode)}

/-! ### Reading a block -/

/-- The lines of dialogue taken since no dialogue was open are read into the open one. -/
def ReadInto (taken : List ScriptLine) (c : Compilation) : Prop :=
  match c.outline with
  | none => taken = []
  | some (_, o) => ∃ root, Outline.Reads root (taken.map ScriptLine.content) o

/-- One more line of dialogue is read into the open one. -/
theorem ReadInto.readRoute {taken : List ScriptLine} (h : ReadInto taken c)
    (hread : c.readRoute l = .ok c') : ReadInto (taken ++ [l]) c' := by
  obtain ⟨d, c₁, start, o, o', store, -, hopen, hadd, rfl⟩ := readRoute_eq_ok_iff.mp hread
  have hreads : ∃ root, Outline.Reads root (taken.map ScriptLine.content) o := by
    unfold dialogueFor at hopen
    rw [ReadInto] at h
    split at hopen
    · next ho =>
      cases hopen
      rwa [ho] at h
    · next hnone =>
      cases hopen
      rw [hnone] at h
      exact ⟨_, by rw [show taken = [] from h]; exact .start⟩
  obtain ⟨root, hreads⟩ := hreads
  refine ⟨root, ?_⟩
  rw [List.map_append]
  exact hreads.line hadd

/-- Lines of dialogue in a row are read into one dialogue. -/
theorem exists_outline_of_block {block : List ScriptLine} (hnone : c.outline = none)
    (hne : block ≠ []) (hroute : ∀ l ∈ block, l.kind = .route)
    (h : block.foldlM readLine c = .ok c') :
    ∃ start o root, c'.outline = some (start, o) ∧
      Outline.Reads root (block.map ScriptLine.content) o := by
  have hread : ReadInto block c' := by
    refine foldlM_ok_taken h (by rw [ReadInto, hnone]) fun taken l rest c c' hblock hc hline => ?_
    have hkind : l.kind = .route := hroute l (by simp [hblock])
    exact hc.readRoute ((readLine_route hkind).mp hline)
  rw [ReadInto] at hread
  cases hopen : c'.outline with
  | none =>
    rw [hopen] at hread
    exact absurd hread hne
  | some opened =>
    rw [hopen] at hread
    obtain ⟨root, hreads⟩ := hread
    exact ⟨opened.1, opened.2, root, rfl, hreads⟩

/-! ### Keeping its nodes -/

/-- The open tape or one of the sealed ones has all the nodes. -/
def HasNodes (nodes : List (String × DialogueNode)) (c : Compilation) : Prop :=
  (∃ d ∈ c.draft, ∀ node ∈ nodes, d.routes.get? node.1 = some node.2) ∨
    ∃ t ∈ c.tapes, ∀ node ∈ nodes, t.text.route? node.1 = some node.2

/-- A dialogue that is closed leaves its nodes in the open tape. -/
theorem hasNodes_closeOutline {start : Nat} {o : Outline} (hopen : c.outline = some (start, o))
    (hclose : c.closeOutline = .ok c') : o.nodes = .ok o.nodesOf ∧ c'.HasNodes o.nodesOf := by
  rcases closeOutline_eq_ok_iff.mp hclose with
    ⟨hnone, -⟩ | ⟨_, o', d, nodes, ho, -, hnodes, hnew, rfl⟩
  · cases hnone.symm.trans hopen
  · cases ho.symm.trans hopen
    obtain ⟨-, -, rfl⟩ := Outline.nodes_eq_ok_iff.mp hnodes
    exact ⟨hnodes, .inl ⟨_, rfl, fun node hnode => get?_insertNodes_of_mem hnew hnode⟩⟩

/-- Closing a dialogue takes no node away. -/
theorem HasNodes.closeOutline (h : c.HasNodes nodes) (haccounted : c.Accounted)
    (hclose : c.closeOutline = .ok c') : c'.HasNodes nodes := by
  rcases closeOutline_eq_ok_iff.mp hclose with
    ⟨-, rfl⟩ | ⟨start, o, d, added, -, hd, -, hnew, rfl⟩
  · exact h
  · rcases h with ⟨_, hd', hnodes⟩ | htapes
    · cases hd.symm.trans hd'
      refine .inl ⟨_, rfl, fun node hnode => ?_⟩
      -- The name of the node is taken, so none of the added nodes has it.
      have hname : node.1 ∈ c.routeNames :=
        (haccounted.routeNames _).mpr
          (.inr ⟨d, hd, Dict.mem_names_iff.mpr ⟨_, hnodes node hnode⟩⟩)
      exact (get?_insertNodes_of_not_mem (hnew.not_mem hname)).trans (hnodes node hnode)
    · exact .inr htapes

/-- Sealing a tape leaves the nodes with one of the tapes. -/
theorem HasNodes.exists_tape (h : c.HasNodes nodes) (hseal : c.sealDraft = .ok c') :
    ∃ t ∈ c'.tapes, ∀ node ∈ nodes, t.text.route? node.1 = some node.2 := by
  rcases sealDraft_eq_ok_iff.mp hseal with ⟨hnone, rfl⟩ | ⟨d, t, hd, ht, rfl⟩
  · rcases h with ⟨d, hd, -⟩ | htapes
    · cases hnone.symm.trans hd
    · exact htapes
  · rcases h with ⟨_, hd', hnodes⟩ | ⟨t', ht', hnodes⟩
    · cases hd.symm.trans hd'
      obtain ⟨w, w', -, -, rfl⟩ := Draft.seal_eq_ok ht
      exact ⟨_, List.mem_append_right _ List.mem_cons_self, fun node hnode => hnodes node hnode⟩
    · exact ⟨t', List.mem_append_left _ ht', hnodes⟩

/-- Whatever a line declares, no node is taken away. -/
theorem HasNodes.readContent (h : c.HasNodes nodes) (hread : c.readContent l = .ok c') :
    c'.HasNodes nodes := by
  -- But for a state line, the open tape keeps its nodes.
  have kept {d d' : Draft} (hd : c.draft = some d) (hd' : c'.draft = some d')
      (hroutes : d'.routes = d.routes) (htapes : c'.tapes = c.tapes) : c'.HasNodes nodes := by
    rcases h with ⟨_, hsame, hnodes⟩ | ⟨t, ht, hnodes⟩
    · cases hd.symm.trans hsame
      exact .inl ⟨d', hd', hroutes ▸ hnodes⟩
    · exact .inr ⟨t, htapes ▸ ht, hnodes⟩
  rw [Compilation.readContent] at hread
  cases hkind : l.kind <;> simp only [hkind] at hread
  case state =>
    obtain ⟨c₁, line, hseal, -, -, rfl⟩ := readState_eq_ok_iff.mp hread
    have htape := h.exists_tape hseal
    exact .inr htape
  case rule =>
    obtain ⟨d, line, store, hd, -, -, rfl⟩ := readRule_eq_ok_iff.mp hread
    exact kept hd rfl rfl rfl
  case route =>
    obtain ⟨d, c₁, start, o, o', store, hd, hopen, -, rfl⟩ := readRoute_eq_ok_iff.mp hread
    have htapes := tapes_dialogueFor hopen
    exact kept hd rfl rfl htapes
  case text =>
    obtain ⟨d, line, store, keys, hd, -, -, rfl⟩ := readText_eq_ok_iff.mp hread
    exact kept hd rfl rfl rfl
  all_goals
    cases hread
    exact h

/-- Lines read one after the other take no node away. -/
theorem HasNodes.readLines {ls : List ScriptLine} (h : c.HasNodes nodes) (haccounted : c.Accounted)
    (hread : ls.foldlM readLine c = .ok c') : c'.HasNodes nodes ∧ c'.Accounted :=
  readLines_induction (P := fun c => c.HasNodes nodes ∧ c.Accounted) hread ⟨h, haccounted⟩
    (fun _ _ hc hclose => ⟨hc.1.closeOutline hc.2 hclose, hc.2.closeOutline hclose⟩)
    fun _ _ _ hc _ hread => ⟨hc.1.readContent hread, hc.2.readContent hread⟩

/-- What comes after a dialogue leaves its nodes to a tape. -/
theorem exists_tape_of_finish {start : Nat} {o : Outline} {after : List ScriptLine}
    {script : CompiledScript} (haccounted : c.Accounted) (hopen : c.outline = some (start, o))
    (hafter : ∀ l ∈ after.head?, l.kind ≠ .route) (hread : after.foldlM readLine c = .ok c')
    (hfinish : c'.finish = .ok script) :
    o.nodes = .ok o.nodesOf ∧
      ∃ t ∈ script.tapes, ∀ node ∈ o.nodesOf, t.text.route? node.1 = some node.2 := by
  obtain ⟨c₁, c₂, hclose, hseal, rfl⟩ := finish_eq_ok_iff.mp hfinish
  cases after with
  | nil =>
    cases hread
    obtain ⟨hnodes, hhas⟩ := hasNodes_closeOutline hopen hclose
    exact ⟨hnodes, hhas.exists_tape hseal⟩
  | cons l after =>
    rw [List.foldlM_cons] at hread
    obtain ⟨c₃, hline, hread⟩ := bind_eq_ok_iff.mp hread
    obtain ⟨c₄, hclosed, hcontent⟩ := (readLine_of_ne_route (hafter l rfl)).mp hline
    obtain ⟨hnodes, hhas⟩ := hasNodes_closeOutline hopen hclosed
    obtain ⟨hhas, haccounted⟩ := (hhas.readContent hcontent).readLines
      ((haccounted.closeOutline hclosed).readContent hcontent) hread
    exact ⟨hnodes, (hhas.closeOutline haccounted hclose).exists_tape hseal⟩

end Compilation

/-- The lines of a block are read into an outline that has nodes, and a tape of the script has all
of them. -/
theorem exists_dialogue_of_block {source : String} {script : CompiledScript}
    {lines before block after : List ScriptLine} (hcompile : compile source = .ok script)
    (hlines : splitScript source = .ok lines) (hblock : IsBlock lines before block after) :
    ∃ t ∈ script.tapes, ∃ root o, Outline.Reads root (block.map ScriptLine.content) o ∧
      o.nodes = .ok o.nodesOf ∧ ∀ node ∈ o.nodesOf, t.text.route? node.1 = some node.2 := by
  obtain ⟨lines', c, hlines', hread, hfinish⟩ := compile_eq_ok_iff.mp hcompile
  cases hlines.symm.trans hlines'
  rw [hblock.lines_eq, List.foldlM_append] at hread
  obtain ⟨c₁, hbefore, hread⟩ := bind_eq_ok_iff.mp hread
  rw [List.foldlM_append] at hread
  obtain ⟨c₂, hinside, hafter⟩ := bind_eq_ok_iff.mp hread
  have hnone : c₁.outline = none := by
    refine Decidable.byContradiction fun hopen => ?_
    have hlast := (Compilation.outline_readLines hbefore).mp hopen
    rw [List.getLast?_map, Option.map_eq_some_iff] at hlast
    obtain ⟨l, hl, hkind⟩ := hlast
    exact hblock.before_ne l hl hkind
  obtain ⟨start, o, root, hopen, hreads⟩ :=
    Compilation.exists_outline_of_block hnone hblock.ne_nil hblock.route hinside
  have hboth : (before ++ block).foldlM Compilation.readLine {} = .ok c₂ := by
    rw [List.foldlM_append]
    exact bind_eq_ok_iff.mpr ⟨c₁, hbefore, hinside⟩
  obtain ⟨hnodes, t, ht, htape⟩ := Compilation.exists_tape_of_finish
    (Compilation.accounted_readLines hboth) hopen hblock.after_ne hafter hfinish
  exact ⟨t, ht, root, o, hreads, hnodes, htape⟩

end StoryTape.Script
