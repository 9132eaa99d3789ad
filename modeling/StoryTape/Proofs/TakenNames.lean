import StoryTape.Proofs.AscendingLists
import StoryTape.Proofs.CompilationSteps
import StoryTape.Proofs.CompiledTapes

/-!
# Names taken by a compilation

A compilation remembers the labels of its tapes and the names of their dialogue nodes, and a name
once taken stays taken. What it remembers is exactly what its tapes have, the open one included: the
labels in lower case, tape by tape, and the names of all their nodes.
-/

namespace StoryTape.Script

open Text

/-- Names that are new are still new among more names, none of them theirs. -/
theorem NewNames.append {names taken : List String} {nodes : List (String × DialogueNode)}
    (h : NewNames names nodes) (hfree : ∀ node ∈ nodes, node.1 ∉ taken) :
    NewNames (taken ++ names) nodes := by
  induction nodes generalizing names with
  | nil => trivial
  | cons node nodes ih =>
    obtain ⟨hnew, hnews⟩ := h
    have htaken : node.1 ∉ taken := hfree node List.mem_cons_self
    have hrest := ih hnews fun n hn => hfree n (List.mem_cons_of_mem node hn)
    exact ⟨by simp [htaken, hnew], List.append_assoc taken names [node.1] ▸ hrest⟩

/-- Adding a node adds its name and no other. -/
theorem mem_names_insert {routes : Dict DialogueNode} {node : String × DialogueNode}
    {name : String} :
    name ∈ (routes.insert node.1 node.2).names ↔ name = node.1 ∨ name ∈ routes.names := by
  rw [Dict.names, Dict.names, List.mem_map, List.mem_map, eq_comm (a := name)]
  exact Ascending.exists_key_insert_iff

/-- Adding nodes adds their names and no others. -/
theorem mem_names_insertNodes {routes : Dict DialogueNode} {nodes : List (String × DialogueNode)}
    {name : String} :
    name ∈ (insertNodes routes nodes).names ↔ name ∈ routes.names ∨ name ∈ nodes.map Prod.fst := by
  induction nodes generalizing routes with
  | nil => simp [insertNodes]
  | cons node nodes ih =>
    have hrest : name ∈ (insertNodes (routes.insert node.1 node.2) nodes).names ↔ _ := ih
    rw [mem_names_insert] at hrest
    simpa [insertNodes, or_assoc, or_left_comm] using hrest

namespace Compilation

variable {c d : Compilation} {l : ScriptLine}

/-! ### Names stay taken -/

/-- Closing a dialogue takes names of nodes and no label. -/
theorem names_closeOutline (h : c.closeOutline = .ok d) :
    c.labels = d.labels ∧ c.routeNames ⊆ d.routeNames := by
  rcases closeOutline_eq_ok_iff.mp h with ⟨-, rfl⟩ | ⟨_, _, _, nodes, -, -, -, -, rfl⟩
  · exact ⟨rfl, List.Subset.refl _⟩
  · exact ⟨rfl, List.subset_append_left _ _⟩

/-- Sealing a tape takes no name. -/
theorem names_sealDraft (h : c.sealDraft = .ok d) :
    c.labels = d.labels ∧ c.routeNames = d.routeNames := by
  rcases sealDraft_eq_ok_iff.mp h with ⟨-, rfl⟩ | ⟨_, _, -, -, rfl⟩ <;> exact ⟨rfl, rfl⟩

/-- The content of a line takes no label or a new one, and no name of a node. -/
theorem taken_readContent (h : c.readContent l = .ok d) :
    (d.labels = c.labels ∨ ∃ label ∉ c.labels, d.labels = c.labels ++ [label]) ∧
      d.routeNames = c.routeNames := by
  rw [readContent] at h
  split at h
  · obtain ⟨c₁, line, hseal, -, hnew, rfl⟩ := readState_eq_ok_iff.mp h
    obtain ⟨hlabels, hnames⟩ := names_sealDraft hseal
    rw [hlabels, hnames]
    exact ⟨.inr ⟨lowerText line.label, hnew, rfl⟩, rfl⟩
  · obtain ⟨_, _, _, -, -, -, rfl⟩ := readRule_eq_ok_iff.mp h
    exact ⟨.inl rfl, rfl⟩
  · obtain ⟨_, c₁, _, _, _, _, -, hopen, -, rfl⟩ := readRoute_eq_ok_iff.mp h
    unfold dialogueFor at hopen
    split at hopen <;> cases hopen <;> exact ⟨.inl rfl, rfl⟩
  · obtain ⟨_, _, _, _, -, -, -, rfl⟩ := readText_eq_ok_iff.mp h
    exact ⟨.inl rfl, rfl⟩
  all_goals
    cases h
    exact ⟨.inl rfl, rfl⟩

/-- Whatever a line declares, it takes no name of a node. -/
theorem names_readContent (h : c.readContent l = .ok d) :
    c.labels ⊆ d.labels ∧ c.routeNames = d.routeNames := by
  obtain ⟨hlabels | ⟨label, -, hlabels⟩, hnames⟩ := taken_readContent h
  · exact ⟨hlabels ▸ List.Subset.refl _, hnames.symm⟩
  · exact ⟨hlabels ▸ List.subset_append_left _ _, hnames.symm⟩

/-- Names once taken stay taken. -/
theorem names_readLines {ls : List ScriptLine} (h : ls.foldlM readLine c = .ok d) :
    c.labels ⊆ d.labels ∧ c.routeNames ⊆ d.routeNames := by
  refine readLines_induction (P := fun d => c.labels ⊆ d.labels ∧ c.routeNames ⊆ d.routeNames) h
    ⟨List.Subset.refl _, List.Subset.refl _⟩ (fun d d' hd hclose => ?_) fun d d' l hd _ hread => ?_
  · obtain ⟨hlabels, hnames⟩ := names_closeOutline hclose
    exact ⟨hlabels ▸ hd.1, List.Subset.trans hd.2 hnames⟩
  · obtain ⟨hlabels, hnames⟩ := names_readContent hread
    exact ⟨List.Subset.trans hd.1 hlabels, hnames ▸ hd.2⟩

/-! ### Names are those of the tapes -/

/-- The labels and node names that a compilation remembers are those of its tapes. -/
structure Accounted (c : Compilation) : Prop where
  labels : c.labels = c.tapes.map (fun t => lowerText t.label) ++
    c.draft.toList.map fun draft => lowerText draft.label
  routeNames : ∀ name, name ∈ c.routeNames ↔
    (∃ t ∈ c.tapes, name ∈ t.text.routes.names) ∨ ∃ draft ∈ c.draft, name ∈ draft.routes.names

/-- Before the first line no name is taken. -/
theorem accounted_start : Accounted {} where
  labels := rfl
  routeNames := by simp

/-- A draft may be replaced by one of the same label with the same nodes. -/
theorem Accounted.setDraft (h : c.Accounted) {draft : Draft} (hdraft : c.draft = some draft)
    (draft' : Draft) (hlabel : draft'.label = draft.label)
    (hroutes : draft'.routes = draft.routes) :
    Accounted { c with draft := some draft' } where
  labels := by
    have hlabels := h.labels
    rw [hdraft] at hlabels
    simpa [hlabel] using hlabels
  routeNames name := by
    have hnames := h.routeNames name
    rw [hdraft] at hnames
    simpa [hroutes] using hnames

/-- The names of added nodes are remembered. -/
theorem Accounted.withNodes (h : c.Accounted) {draft : Draft} (hdraft : c.draft = some draft)
    (nodes : List (String × DialogueNode)) : (c.withNodes draft nodes).Accounted where
  labels := by
    have hlabels := h.labels
    rw [hdraft] at hlabels
    exact hlabels
  routeNames name := by
    have hnames := h.routeNames name
    rw [hdraft] at hnames
    simp only [Option.mem_def, Option.some.injEq, exists_eq_left'] at hnames
    simp only [Compilation.withNodes, List.mem_append, hnames, Option.mem_def, Option.some.injEq,
      exists_eq_left', mem_names_insertNodes, or_assoc]

/-- Closing a dialogue leaves the names accounted for. -/
theorem Accounted.closeOutline (h : c.Accounted) (hclose : c.closeOutline = .ok d) :
    d.Accounted := by
  rcases closeOutline_eq_ok_iff.mp hclose with ⟨-, rfl⟩ | ⟨_, _, draft, nodes, -, hdraft, -, -, rfl⟩
  · exact h
  · have hclosed : Accounted { c with outline := none } := ⟨h.labels, h.routeNames⟩
    exact hclosed.withNodes hdraft nodes

/-- Sealing a tape leaves the names accounted for. -/
theorem Accounted.sealDraft (h : c.Accounted) (hseal : c.sealDraft = .ok d) : d.Accounted := by
  rcases sealDraft_eq_ok_iff.mp hseal with ⟨-, rfl⟩ | ⟨draft, t, hdraft, ht, rfl⟩
  · exact h
  · obtain ⟨w, w', -, -, rfl⟩ := Draft.seal_eq_ok ht
    have hlabels := h.labels
    have hnames := h.routeNames
    rw [hdraft] at hlabels hnames
    exact ⟨by simpa using hlabels, by simpa [LineStore.toBook, or_comm] using hnames⟩

/-- Whatever a line declares, the names are accounted for. -/
theorem Accounted.readContent (h : c.Accounted) (hread : c.readContent l = .ok d) :
    d.Accounted := by
  rw [Compilation.readContent] at hread
  split at hread
  · obtain ⟨c₁, line, hseal, -, -, rfl⟩ := readState_eq_ok_iff.mp hread
    have h₁ := h.sealDraft hseal
    have hnone := draft_sealDraft hseal
    have hlabels := h₁.labels
    have hnames := h₁.routeNames
    rw [hnone] at hlabels hnames
    exact ⟨by simpa [Compilation.note] using hlabels,
      by simpa [Compilation.note, Dict.names, Dict.empty] using hnames⟩
  · obtain ⟨draft, line, store, hdraft, -, -, rfl⟩ := readRule_eq_ok_iff.mp hread
    have hset := h.setDraft hdraft { draft with store, rules := draft.rules ++ [line.rule] } rfl rfl
    exact ⟨hset.labels, hset.routeNames⟩
  · obtain ⟨draft, c₁, start, o, o', store, hdraft, hopen, -, rfl⟩ := readRoute_eq_ok_iff.mp hread
    have hset := h.setDraft hdraft { draft with store } rfl rfl
    unfold dialogueFor at hopen
    split at hopen <;> cases hopen <;> exact ⟨hset.labels, hset.routeNames⟩
  · obtain ⟨draft, line, store, keys, hdraft, -, -, rfl⟩ := readText_eq_ok_iff.mp hread
    have hset := h.setDraft hdraft { draft with store } rfl rfl
    exact ⟨hset.labels, hset.routeNames⟩
  all_goals
    cases hread
    exact ⟨h.labels, h.routeNames⟩

/-- All along a script the names taken are those of its tapes. -/
theorem accounted_readLines {ls : List ScriptLine}
    (h : ls.foldlM readLine {} = .ok c) : c.Accounted :=
  readLines_induction h accounted_start (fun _ _ hc => hc.closeOutline)
    fun _ _ _ hc _ => hc.readContent

end Compilation

end StoryTape.Script
