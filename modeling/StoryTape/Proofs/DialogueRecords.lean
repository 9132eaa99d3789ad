import StoryTape.Proofs.DialogueLines
import StoryTape.Proofs.Dialogues

/-!
# Dialogue as it is compiled

While a script is compiled, the open dialogue represents the lines read since it was opened. Closing
it turns these lines into nodes, and what the script says of a node stays true while the tape grows.
So in every compiled tape a choice leads to a node that its lines in the script speak, and a node
under the name of a dialogue is the root of that dialogue, which shows its name and has a choice.
-/

namespace StoryTape.Script

open Text

/-- In a tape under way every choice leads to a node that the script speaks. -/
def Draft.Speaks (script : List ScriptLine) (d : Draft) : Prop :=
  ∀ name node, d.routes.get? name = some node → ∀ c ∈ node.choices,
    ∃ next, d.routes.get? c.next = some next ∧ Spoken script d.store.linesOf d.store.Noted c next

/-- Storing more text leaves the nodes with what the script speaks. -/
theorem Draft.Speaks.grows {script : List ScriptLine} {d d' : Draft} {n : Nat}
    (h : d.Speaks script) (hroutes : d'.routes = d.routes) (hgrows : d.store.Grows n d'.store) :
    d'.Speaks script := by
  intro name node hnode c hc
  rw [hroutes] at hnode ⊢
  obtain ⟨next, hnext, hspoken⟩ := h name node hnode c hc
  exact ⟨next, hnext, hspoken.mono hgrows.linesOf_prefix fun _ hname => hname.grows hgrows⟩

namespace Compilation

variable {c c' : Compilation} {l : ScriptLine} {script taken after : List ScriptLine}
  {name : String} {node : DialogueNode}

/-! ### Roots -/

/-- One of the tapes, or the one under way, has the node under the name. -/
def HasNode (c : Compilation) (name : String) (node : DialogueNode) : Prop :=
  (∃ d ∈ c.draft, d.routes.get? name = some node) ∨ ∃ t ∈ c.tapes, t.text.route? name = some node

/-- The name of every node of a tape is taken. -/
theorem Accounted.mem_routeNames (h : c.Accounted) (hnode : c.HasNode name node) :
    name ∈ c.routeNames := by
  refine (h.routeNames name).mpr ?_
  rcases hnode with ⟨d, hd, hnode⟩ | ⟨t, ht, hnode⟩
  · exact .inr ⟨d, hd, Dict.mem_names_iff.mpr ⟨_, hnode⟩⟩
  · exact .inl ⟨t, ht, Dict.mem_names_iff.mpr ⟨_, hnode⟩⟩

/-- Sealing a tape makes no node. -/
theorem hasNode_sealDraft (hseal : c.sealDraft = .ok c') (hnode : c'.HasNode name node) :
    c.HasNode name node := by
  rcases sealDraft_eq_ok_iff.mp hseal with ⟨-, rfl⟩ | ⟨d, t, hd, ht, rfl⟩
  · exact hnode
  · obtain ⟨w, w', -, -, rfl⟩ := Draft.seal_eq_ok ht
    rcases hnode with ⟨_, ⟨⟩, -⟩ | ⟨t, ht, hnode⟩
    rcases List.mem_append.mp ht with ht | ht
    · exact .inr ⟨t, ht, hnode⟩
    · obtain rfl := List.mem_singleton.mp ht
      exact .inl ⟨d, hd, hnode⟩

/-- A line adds no node; that is done when a dialogue is closed. -/
theorem hasNode_readContent (hread : c.readContent l = .ok c') (hnode : c'.HasNode name node) :
    c.HasNode name node := by
  rw [readContent] at hread
  cases hkind : l.kind <;> simp only [hkind] at hread
  case state =>
    obtain ⟨c₁, line, hseal, -, -, rfl⟩ := readState_eq_ok_iff.mp hread
    refine hasNode_sealDraft hseal ?_
    rcases hnode with ⟨_, ⟨⟩, hnode⟩ | htapes
    · cases hnode
    · exact .inr htapes
  case rule =>
    obtain ⟨d, line, store, hd, -, -, rfl⟩ := readRule_eq_ok_iff.mp hread
    rcases hnode with ⟨_, ⟨⟩, hnode⟩ | htapes
    · exact .inl ⟨d, hd, hnode⟩
    · exact .inr htapes
  case route =>
    obtain ⟨d, c₁, start, o, o', store, hd, hopen, -, rfl⟩ := readRoute_eq_ok_iff.mp hread
    rcases hnode with ⟨_, ⟨⟩, hnode⟩ | htapes
    · exact .inl ⟨d, hd, hnode⟩
    · exact .inr (tapes_dialogueFor hopen ▸ htapes)
  case text =>
    obtain ⟨d, line, store, keys, hd, -, -, rfl⟩ := readText_eq_ok_iff.mp hread
    rcases hnode with ⟨_, ⟨⟩, hnode⟩ | htapes
    · exact .inl ⟨d, hd, hnode⟩
    · exact .inr htapes
  all_goals
    cases hread
    exact hnode

/-- The root of a dialogue shows its own name and has a choice. -/
def IsRoot (name : String) (node : DialogueNode) : Prop := node.text = [name] ∧ node.choices ≠ []

/-- Every dialogue that was noted has the name of a text. It is the open one, or its name is taken
and no other node has it. -/
def Headed (c : Compilation) : Prop :=
  ∀ number name, (number, Part.route name) ∈ c.parts → IsTextName name ∧
    ((∃ opened ∈ c.outline, opened.2.root = name) ∨
      name ∈ c.routeNames ∧ ∀ node, c.HasNode name node → IsRoot name node)

/-- Closing a dialogue keeps the noted dialogues headed by their roots. -/
theorem Headed.closeOutline (h : c.Headed) (haccounted : c.Accounted)
    (hclose : c.closeOutline = .ok c') : c'.Headed := by
  rcases closeOutline_eq_ok_iff.mp hclose with
    ⟨-, rfl⟩ | ⟨start, o, d, nodes, ho, hd, hnodes, hnew, rfl⟩
  · exact h
  · obtain ⟨htop, -, rfl⟩ := Outline.nodes_eq_ok_iff.mp hnodes
    intro number name hpart
    obtain ⟨hname, hroot⟩ := h number name hpart
    refine ⟨hname, .inr ?_⟩
    rcases hroot with ⟨opened, hopened, rfl⟩ | ⟨htaken, hroot⟩
    · obtain rfl : (start, o) = opened := Option.some.inj (ho.symm.trans hopened)
      refine ⟨List.mem_append_right _ List.mem_cons_self, fun node hnode => ?_⟩
      rcases hnode with ⟨_, ⟨⟩, hnode⟩ | ⟨t, ht, hnode⟩
      · have hadded : (insertNodes d.routes o.nodesOf).get? o.root = some _ :=
          get?_insertNodes_of_mem hnew List.mem_cons_self
        cases hadded.symm.trans hnode
        exact ⟨rfl, mt List.map_eq_nil_iff.mp htop⟩
      · exact absurd (haccounted.mem_routeNames (.inr ⟨t, ht, hnode⟩)) hnew.1
    · refine ⟨List.mem_append_left _ htaken, fun node hnode => hroot node ?_⟩
      rcases hnode with ⟨_, ⟨⟩, hnode⟩ | htapes
      · refine .inl ⟨d, hd, ?_⟩
        have hother : (insertNodes d.routes o.nodesOf).get? name = some node := hnode
        rwa [get?_insertNodes_of_not_mem (hnew.not_mem htaken)] at hother
      · exact .inr htapes

/-- Sealing a tape keeps the noted dialogues headed by their roots. -/
theorem Headed.sealDraft (h : c.Headed) (hseal : c.sealDraft = .ok c') : c'.Headed := by
  intro number name hpart
  have hnodes : ∀ node, c'.HasNode name node → c.HasNode name node :=
    fun _ => hasNode_sealDraft hseal
  rcases sealDraft_eq_ok_iff.mp hseal with ⟨-, rfl⟩ | ⟨d, t, -, -, rfl⟩
  · exact h number name hpart
  · obtain ⟨hname, hroot⟩ := h number name hpart
    exact ⟨hname, hroot.imp_right fun ⟨htaken, hroot⟩ =>
      ⟨htaken, fun node hnode => hroot node (hnodes node hnode)⟩⟩

/-- Only lines of dialogue are noted as such. -/
theorem route_mem_parts_of_readContent (hkind : l.kind ≠ .route) (hread : c.readContent l = .ok c')
    {number : Nat} (hpart : (number, Part.route name) ∈ c'.parts) :
    (number, Part.route name) ∈ c.parts := by
  have noted (part : Part) (hne : part ≠ .route name)
      (hpart : (number, Part.route name) ∈ c.parts ++ [(l.number, part)]) :
      (number, Part.route name) ∈ c.parts := by
    rcases List.mem_append.mp hpart with hpart | hlast
    · exact hpart
    · exact absurd (Prod.mk.inj (List.mem_singleton.mp hlast)).2.symm hne
  rw [readContent] at hread
  cases hsort : l.kind <;> simp only [hsort] at hread
  case state =>
    obtain ⟨c₁, line, hseal, -, -, rfl⟩ := readState_eq_ok_iff.mp hread
    exact noted (.state line.label) (by simp) (parts_sealDraft hseal ▸ hpart)
  case rule =>
    obtain ⟨_, line, _, -, -, -, rfl⟩ := readRule_eq_ok_iff.mp hread
    exact noted (.rule line.rule) (by simp) hpart
  case route => exact absurd hsort hkind
  case text =>
    obtain ⟨_, _, _, keys, -, -, -, rfl⟩ := readText_eq_ok_iff.mp hread
    exact noted (.text keys) (by simp) hpart
  case comment =>
    cases hread
    exact noted (.comment _) (by simp) hpart
  all_goals
    cases hread
    exact hpart

/-- Whatever a line declares, the noted dialogues stay headed by their roots. -/
theorem Headed.readContent (h : c.Headed) (htraced : c.Traced script)
    (hread : c.readContent l = .ok c') : c'.Headed := by
  have hnames := (names_readContent hread).2
  have taken {name : String}
      (h : name ∈ c.routeNames ∧ ∀ node, c.HasNode name node → IsRoot name node) :
      name ∈ c'.routeNames ∧ ∀ node, c'.HasNode name node → IsRoot name node :=
    ⟨hnames ▸ h.1, fun node hnode => h.2 node (hasNode_readContent hread hnode)⟩
  intro number name hpart
  by_cases hkind : l.kind = .route
  · rw [Compilation.readContent, hkind] at hread
    obtain ⟨d, c₁, start, o, o', store, hd, hopen, hadd, rfl⟩ := readRoute_eq_ok_iff.mp hread
    have hroot := Outline.root_addLine hadd
    unfold dialogueFor at hopen
    split at hopen
    · next ho =>
      cases hopen
      obtain ⟨hname, h⟩ := h number name hpart
      refine ⟨hname, h.imp (fun hopen => ?_) taken⟩
      obtain ⟨opened, hopened, hsame⟩ := hopen
      cases ho.symm.trans hopened
      exact ⟨_, rfl, hroot.trans hsame⟩
    · next hnone =>
      cases hopen
      rcases List.mem_append.mp hpart with hpart | hpart
      · obtain ⟨hname, ⟨opened, hopened, -⟩ | h⟩ := h number name hpart
        · cases hnone.symm.trans hopened
        · exact ⟨hname, .inr (taken h)⟩
      · obtain ⟨-, hsame⟩ := Prod.mk.inj (List.mem_singleton.mp hpart)
        cases hsame
        exact ⟨(htraced.draft d hd).isTextName_dialogueRoot, .inl ⟨_, rfl, hroot⟩⟩
  · obtain ⟨hname, h⟩ := h number name (route_mem_parts_of_readContent hkind hread hpart)
    exact ⟨hname, h.imp (outline_readContent hkind hread ▸ id) taken⟩

/-! ### Records -/

/-- What is recorded of dialogues all along a script of which some lines are taken: the open
dialogue represents the last of these lines, and what the closed ones became is spoken by the
script. -/
structure Recorded (script taken : List ScriptLine) (c : Compilation) : Prop where
  coherent : c.Coherent
  traced : c.Traced script
  headed : c.Headed
  draft : ∀ d ∈ c.draft, d.Speaks script
  tapes : ∀ t ∈ c.tapes, ∃ d : Draft, d.Traced script ∧ d.Speaks script ∧ d.seal = .ok t
  outline : ∀ opened ∈ c.outline, ∃ before block, taken = before ++ block ∧
    ∀ d ∈ c.draft, opened.2.Represents block d.store

/-- Before the first line nothing is recorded. -/
theorem recorded_start (script : List ScriptLine) : Recorded script [] {} where
  coherent := coherent_start
  traced := ⟨nofun, nofun, nofun⟩
  headed := nofun
  draft := nofun
  tapes := nofun
  outline := nofun

/-- Closing a dialogue keeps what is recorded of it, if the next line is no dialogue. -/
theorem Recorded.closeOutline (h : Recorded script taken c) (hscript : script = taken ++ after)
    (hafter : ∀ l ∈ after.head?, l.kind ≠ .route) (hclose : c.closeOutline = .ok c') :
    Recorded script taken c' := by
  have hcoherent := h.coherent.closeOutline hclose
  have htraced := h.traced.closeOutline hclose
  have hheaded := h.headed.closeOutline h.coherent.accounted hclose
  rcases closeOutline_eq_ok_iff.mp hclose with
    ⟨-, rfl⟩ | ⟨start, o, d, nodes, ho, hd, hnodes, hnew, rfl⟩
  · exact h
  · obtain ⟨-, -, rfl⟩ := Outline.nodes_eq_ok_iff.mp hnodes
    obtain ⟨before, block, rfl, hblock⟩ := h.outline _ ho
    have hwritten : o.Written d.store := h.coherent.outline (start, o) ho d hd
    refine ⟨hcoherent, htraced, hheaded, ?_, h.tapes, nofun⟩
    rintro _ ⟨⟩ name node hnode c hc
    refine exists_next_insertNodes (h.draft d hd) (h.coherent.names_subset hd) hnew
      (fun node hnode c hc => ?_) hnode hc
    obtain ⟨l, rest, next, hmade⟩ := hwritten.exists_madeBy hnode hc
    rw [List.append_assoc] at hscript
    exact ⟨next, hmade.mem, (hblock d hd).spoken hscript hafter hmade⟩

/-- Sealing a tape keeps what is recorded. -/
theorem Recorded.sealDraft (h : Recorded script taken c) (hseal : c.sealDraft = .ok c') :
    Recorded script taken c' := by
  have hcoherent := h.coherent.sealDraft hseal
  have htraced := h.traced.sealDraft hseal
  have hheaded := h.headed.sealDraft hseal
  rcases sealDraft_eq_ok_iff.mp hseal with ⟨-, rfl⟩ | ⟨d, t, hd, ht, rfl⟩
  · exact h
  · refine ⟨hcoherent, htraced, hheaded, nofun, fun t' ht' => ?_, fun opened hopened => ?_⟩
    · rcases List.mem_append.mp ht' with ht' | ht'
      · exact h.tapes t' ht'
      · exact ⟨d, h.traced.draft d hd, h.draft d hd, List.mem_singleton.mp ht' ▸ ht⟩
    · obtain ⟨before, block, htaken, -⟩ := h.outline opened hopened
      exact ⟨before, block, htaken, nofun⟩

/-- Whatever a line declares, it is recorded with the lines before it. -/
theorem Recorded.readContent (h : Recorded script taken c)
    (hsort : l.kind = .route ∨ c.outline = none) (hl : l ∈ script)
    (hread : c.readContent l = .ok c') : Recorded script (taken ++ [l]) c' := by
  have hcoherent := h.coherent.readContent hsort hread
  have htraced := h.traced.readContent hl hread
  have hheaded := h.headed.readContent h.traced hread
  have hclosed (hkind : l.kind ≠ .route) : c'.outline = none :=
    (outline_readContent hkind hread).trans (hsort.resolve_left hkind)
  rw [Compilation.readContent] at hread
  cases hkind : l.kind <;> simp only [hkind] at hread
  case state =>
    obtain ⟨c₁, line, hseal, -, -, rfl⟩ := readState_eq_ok_iff.mp hread
    refine ⟨hcoherent, htraced, hheaded, ?_, (h.sealDraft hseal).tapes, fun opened hopened => ?_⟩
    · rintro _ ⟨⟩ name node hnode
      cases hnode
    · cases (hclosed (by simp [hkind])).symm.trans hopened
  case rule =>
    obtain ⟨d, line, store, hd, -, hstore, rfl⟩ := readRule_eq_ok_iff.mp hread
    obtain ⟨n, hgrows⟩ := exists_grows_storeRuleText hstore
    refine ⟨hcoherent, htraced, hheaded, ?_, h.tapes, fun opened hopened => ?_⟩
    · rintro _ ⟨⟩
      exact (h.draft d hd).grows rfl hgrows
    · cases (hclosed (by simp [hkind])).symm.trans hopened
  case route =>
    obtain ⟨d, c₁, start, o, o', store, hd, hopen, hadd, rfl⟩ := readRoute_eq_ok_iff.mp hread
    have hgrows := o.grows_addLine l.content d.store
    rw [hadd] at hgrows
    -- The line goes on with the open dialogue, or it is the first line of a new one.
    obtain ⟨htapes, before, block, rfl, hblock⟩ : c₁.tapes = c.tapes ∧
        ∃ before block, taken = before ++ block ∧ o.Represents block d.store := by
      unfold dialogueFor at hopen
      split at hopen
      · next ho =>
        cases hopen
        obtain ⟨before, block, htaken, hblock⟩ := h.outline _ ho
        exact ⟨rfl, before, block, htaken, hblock d hd⟩
      · cases hopen
        exact ⟨rfl, taken, [], (List.append_nil taken).symm, .nil⟩
    refine ⟨hcoherent, htraced, hheaded, ?_, htapes ▸ h.tapes, ?_⟩
    · rintro _ ⟨⟩
      exact (h.draft d hd).grows rfl hgrows
    · rintro _ ⟨⟩
      refine ⟨before, block ++ [l], List.append_assoc _ _ _, ?_⟩
      rintro _ ⟨⟩
      exact hblock.addLine hkind hadd
  case text =>
    obtain ⟨d, line, store, keys, hd, -, hstore, rfl⟩ := readText_eq_ok_iff.mp hread
    obtain ⟨n, hgrows⟩ := exists_grows_storeTextLine d.store line
    rw [hstore] at hgrows
    refine ⟨hcoherent, htraced, hheaded, ?_, h.tapes, fun opened hopened => ?_⟩
    · rintro _ ⟨⟩
      exact (h.draft d hd).grows rfl hgrows
    · cases (hclosed (by simp [hkind])).symm.trans hopened
  all_goals
    cases hread
    refine ⟨hcoherent, htraced, hheaded, h.draft, h.tapes, fun opened hopened => ?_⟩
    cases (hclosed (by simp [hkind])).symm.trans hopened

/-- One more line of the script is recorded with the lines before it. -/
theorem Recorded.readLine {rest : List ScriptLine} (h : Recorded script taken c)
    (hscript : script = taken ++ l :: rest) (hread : c.readLine l = .ok c') :
    Recorded script (taken ++ [l]) c' := by
  have hl : l ∈ script := by simp [hscript]
  rcases readLine_cases hread with ⟨hkind, hcontent⟩ | ⟨hkind, c₁, hclose, hcontent⟩
  · exact h.readContent (.inl hkind) hl hcontent
  · have hafter : ∀ l' ∈ (l :: rest).head?, l'.kind ≠ .route := by
      rintro _ ⟨⟩
      exact hkind
    exact (h.closeOutline hscript hafter hclose).readContent
      (.inr (outline_closeOutline hclose)) hl hcontent

end Compilation

/-- In a compiled tape every choice leads to a node that the script speaks, and a node under the
name of a noted dialogue is the root of one. -/
theorem exists_recorded_of_compile {source : String} {script : CompiledScript}
    {lines : List ScriptLine} (h : compile source = .ok script)
    (hlines : splitScript source = .ok lines) {t : Tape} (ht : t ∈ script.tapes) :
    (∃ d : Draft, d.Traced lines ∧ d.Speaks lines ∧ d.seal = .ok t) ∧
      ∀ number name, (number, Part.route name) ∈ script.parts → IsTextName name ∧
        ∀ node, t.text.route? name = some node → Compilation.IsRoot name node := by
  obtain ⟨lines', c, hlines', hread, hfinish⟩ := compile_eq_ok_iff.mp h
  cases hlines.symm.trans hlines'
  obtain ⟨c₁, c₂, hclose, hseal, rfl⟩ := Compilation.finish_eq_ok_iff.mp hfinish
  have hc : c.Recorded lines lines := foldlM_ok_taken hread (Compilation.recorded_start lines)
    fun _ _ _ _ _ hlines hc hstep => hc.readLine hlines hstep
  have hclosed := hc.closeOutline (List.append_nil lines).symm nofun hclose
  have hsealed := hclosed.sealDraft hseal
  refine ⟨hsealed.tapes t ht, fun number name hpart => ?_⟩
  obtain ⟨hname, hroot⟩ := hsealed.headed number name hpart
  refine ⟨hname, fun node hnode => ?_⟩
  rcases hroot with ⟨opened, hopened, -⟩ | ⟨-, hroot⟩
  · have hnone := (Compilation.outline_sealDraft hseal).trans
      (Compilation.outline_closeOutline hclose)
    cases hnone.symm.trans hopened
  · exact hroot node (.inr ⟨t, ht, hnode⟩)

end StoryTape.Script
