import StoryTape.Proofs.Lossless
import StoryTape.Proofs.OutlineNodes
import StoryTape.Proofs.TakenNames
import StoryTape.Proofs.TapeProblems

/-!
# Dialogues that do not dangle

Whatever dialogue a script declares, its choices lead somewhere. The nodes of an outline are added
under names that are new in the script, so no later node takes the place of one that a choice leads
to, and the keys that the nodes show stay keys of lines while the tape grows. In a compiled tape
every choice therefore has a label to show and a node to go to, with texts to show there.
-/

namespace StoryTape.Script

open Text

/-- Every choice has a label that is stored, and leads to a node whose texts are. -/
def Leads (store : LineStore) (routes : Dict DialogueNode) : Prop :=
  ∀ name node, routes.get? name = some node → ∀ c ∈ node.choices,
    store.Keyed c.label ∧ ∃ next, routes.get? c.next = some next ∧
      ∀ key ∈ next.text, store.Keyed key

/-- Where there is no node there is nothing to lead to. -/
theorem leads_empty (store : LineStore) : Leads store .empty := by
  intro name node hnode
  cases hnode

/-- Choices lead on as before when more text is stored. -/
theorem Leads.grows {store store' : LineStore} {routes : Dict DialogueNode} {n : Nat}
    (h : Leads store routes) (hgrows : store.Grows n store') : Leads store' routes := by
  intro name node hnode c hc
  obtain ⟨hlabel, next, hnext, htext⟩ := h name node hnode c hc
  exact ⟨hlabel.grows hgrows, next, hnext, fun key hkey => (htext key hkey).grows hgrows⟩

/-! ### Nodes under new names -/

section Nodes

variable {names : List String} {routes : Dict DialogueNode} {nodes : List (String × DialogueNode)}

/-- A name that is taken is not among the new ones. -/
theorem NewNames.not_mem (h : NewNames names nodes) {name : String} (hname : name ∈ names) :
    name ∉ nodes.map Prod.fst := by
  induction nodes generalizing names with
  | nil => exact List.not_mem_nil
  | cons node nodes ih =>
    obtain ⟨hnew, hnews⟩ := h
    have hne : name ≠ node.1 := fun hsame => hnew (hsame ▸ hname)
    exact List.not_mem_cons_of_ne_of_not_mem hne (ih hnews (List.mem_append_left _ hname))

/-- Adding nodes leaves what is under other names. -/
theorem get?_insertNodes_of_not_mem {name : String} (h : name ∉ nodes.map Prod.fst) :
    (insertNodes routes nodes).get? name = routes.get? name := by
  induction nodes generalizing routes with
  | nil => rfl
  | cons node nodes ih =>
    rw [List.map_cons, List.mem_cons, not_or] at h
    obtain ⟨hne, hrest⟩ := h
    have hinsert : (insertNodes (routes.insert node.1 node.2) nodes).get? name = _ := ih hrest
    rw [Dict.get?_insert, if_neg (Ne.symm hne)] at hinsert
    exact hinsert

/-- Nodes added under new names are found. -/
theorem get?_insertNodes_of_mem (hnew : NewNames names nodes) {node : String × DialogueNode}
    (h : node ∈ nodes) : (insertNodes routes nodes).get? node.1 = some node.2 := by
  induction nodes generalizing names routes with
  | nil => cases h
  | cons first nodes ih =>
    rcases List.mem_cons.mp h with rfl | h
    · have hrest : node.1 ∉ nodes.map Prod.fst := hnew.2.not_mem (by simp)
      have hinsert : (insertNodes (routes.insert node.1 node.2) nodes).get? node.1 = _ :=
        get?_insertNodes_of_not_mem hrest
      rw [Dict.get?_insert, if_pos rfl] at hinsert
      exact hinsert
    · exact ih hnew.2 h

/-- Where nodes are added under new names, every choice leads somewhere if those of the new nodes
lead to new nodes and the others to nodes that were there. What holds of a choice and the node it
leads to stays true. -/
theorem exists_next_insertNodes {P : Choice → DialogueNode → Prop}
    (h : ∀ name node, routes.get? name = some node → ∀ c ∈ node.choices,
      ∃ next, routes.get? c.next = some next ∧ P c next)
    (hnames : routes.names ⊆ names) (hnew : NewNames names nodes)
    (hnodes : ∀ node ∈ nodes, ∀ c ∈ node.2.choices, ∃ next, (c.next, next) ∈ nodes ∧ P c next)
    {name : String} {node : DialogueNode} (hnode : (insertNodes routes nodes).get? name = some node)
    {c : Choice} (hc : c ∈ node.choices) :
    ∃ next, (insertNodes routes nodes).get? c.next = some next ∧ P c next := by
  by_cases hname : name ∈ nodes.map Prod.fst
  · obtain ⟨added, hadded, rfl⟩ := List.mem_map.mp hname
    rw [get?_insertNodes_of_mem hnew hadded] at hnode
    cases hnode
    obtain ⟨next, hnext, hP⟩ := hnodes added hadded c hc
    exact ⟨next, get?_insertNodes_of_mem hnew hnext, hP⟩
  · rw [get?_insertNodes_of_not_mem hname] at hnode
    obtain ⟨next, hnext, hP⟩ := h name node hnode c hc
    -- The node that it leads to was there, and no new node has its name.
    have hold : c.next ∈ routes.names := Dict.mem_names_iff.mpr ⟨_, hnext⟩
    refine ⟨next, ?_, hP⟩
    rw [get?_insertNodes_of_not_mem (hnew.not_mem (hnames hold)), hnext]

/-- Nodes under new names lead on, and so do those that were there. -/
theorem Leads.insertNodes {store : LineStore} (h : Leads store routes)
    (hnames : routes.names ⊆ names) (hnew : NewNames names nodes)
    (hnodes : ∀ node ∈ nodes, ∀ c ∈ node.2.choices, store.Keyed c.label ∧
      ∃ next, (c.next, next) ∈ nodes ∧ ∀ key ∈ next.text, store.Keyed key) :
    Leads store (insertNodes routes nodes) := by
  intro name node hnode c hc
  obtain ⟨next, hnext, hlabel, htext⟩ := exists_next_insertNodes
    (P := fun c next => store.Keyed c.label ∧ ∀ key ∈ next.text, store.Keyed key)
    (fun name node hnode c hc => by
      obtain ⟨hlabel, next, hnext, htext⟩ := h name node hnode c hc
      exact ⟨next, hnext, hlabel, htext⟩) hnames hnew
    (fun node hnode c hc => by
      obtain ⟨hlabel, next, hnext, htext⟩ := hnodes node hnode c hc
      exact ⟨next, hnext, hlabel, htext⟩) hnode hc
  exact ⟨hlabel, next, hnext, htext⟩

end Nodes

/-! ### The dialogues of a compilation -/

/-- The text of a rule line only adds to the store. -/
theorem exists_grows_storeRuleText {store store' : LineStore} {text : Option RuleText}
    (h : storeRuleText store text = .ok store') : ∃ n, store.Grows n store' := by
  cases text with
  | none =>
    cases h
    exact ⟨0, .refl 0⟩
  | some text => exact ⟨_, Compilation.grows_storeSentences h⟩

/-- A text line only adds to the store. -/
theorem exists_grows_storeTextLine (store : LineStore) (line : TextLine) :
    ∃ n, store.Grows n (storeTextLine store line).1 := by
  unfold storeTextLine
  split
  · exact ⟨_, store.grows_add line.name _⟩
  · exact ⟨_, store.grows_addSequence line.name _ _⟩

namespace Compilation

variable {c c' : Compilation} {l : ScriptLine}

/-- What holds of the dialogues all along a compilation: those of the tapes lead on, and the open
one is written into the open tape. -/
structure Coherent (c : Compilation) : Prop where
  accounted : c.Accounted
  tapes : ∀ t ∈ c.tapes, ∃ store routes, t.text = LineStore.toBook store routes ∧ Leads store routes
  draft : ∀ d ∈ c.draft, Leads d.store d.routes
  outline : ∀ opened ∈ c.outline, ∀ d ∈ c.draft, opened.2.Written d.store

/-- Before the first line all dialogues lead on. -/
theorem coherent_start : Coherent {} := ⟨accounted_start, nofun, nofun, nofun⟩

/-- The names of the nodes of the open tape are taken. -/
theorem Coherent.names_subset (h : c.Coherent) {d : Draft} (hd : c.draft = some d) :
    d.routes.names ⊆ c.routeNames :=
  fun name hname => (h.accounted.routeNames name).mpr (.inr ⟨d, hd, hname⟩)

/-- A dialogue that is closed leads on. -/
theorem Coherent.closeOutline (h : c.Coherent) (hclose : c.closeOutline = .ok c') :
    c'.Coherent := by
  have haccounted := h.accounted.closeOutline hclose
  rcases closeOutline_eq_ok_iff.mp hclose with
    ⟨-, rfl⟩ | ⟨start, o, d, nodes, ho, hd, hnodes, hnew, rfl⟩
  · exact h
  · obtain ⟨-, -, rfl⟩ := Outline.nodes_eq_ok_iff.mp hnodes
    have hwritten : o.Written d.store := h.outline (start, o) ho d hd
    have hleads := (h.draft d hd).insertNodes (h.names_subset hd) hnew
      fun node hnode c hc => hwritten.leads hnode hc
    refine ⟨haccounted, h.tapes, ?_, nofun⟩
    rintro _ ⟨⟩
    exact hleads

/-- Sealing a tape changes no dialogue. -/
theorem Coherent.sealDraft (h : c.Coherent) (hseal : c.sealDraft = .ok c') : c'.Coherent := by
  have haccounted := h.accounted.sealDraft hseal
  rcases sealDraft_eq_ok_iff.mp hseal with ⟨-, rfl⟩ | ⟨d, t, hd, ht, rfl⟩
  · exact h
  · obtain ⟨w, w', -, -, rfl⟩ := Draft.seal_eq_ok ht
    refine ⟨haccounted, fun t ht => ?_, nofun, nofun⟩
    rcases List.mem_append.mp ht with ht | ht
    · exact h.tapes t ht
    · obtain rfl := List.mem_singleton.mp ht
      exact ⟨d.store, d.routes, rfl, h.draft d hd⟩

/-- Where no dialogue is open, the open tape may store more texts. -/
theorem Coherent.store (h : c.Coherent) (hnone : c.outline = none) {d : Draft}
    (hd : c.draft = some d) (d' : Draft) {n : Nat} (hgrows : d.store.Grows n d'.store)
    (hroutes : d'.routes = d.routes) (haccounted : c'.Accounted) (htapes : c'.tapes = c.tapes)
    (houtline : c'.outline = c.outline) (hd' : c'.draft = some d') : c'.Coherent := by
  refine ⟨haccounted, htapes ▸ h.tapes, fun e he => ?_, fun opened hopened => ?_⟩
  · cases hd'.symm.trans he
    exact hroutes ▸ (h.draft d hd).grows hgrows
  · rw [houtline, hnone] at hopened
    cases hopened

/-- A line of dialogue is written into the open tape. -/
theorem Coherent.readRoute (h : c.Coherent) (hread : c.readRoute l = .ok c')
    (haccounted : c'.Accounted) : c'.Coherent := by
  obtain ⟨d, c₁, start, o, o', store, hd, hopen, hadd, rfl⟩ := readRoute_eq_ok_iff.mp hread
  have hgrows := o.grows_addLine l.content d.store
  rw [hadd] at hgrows
  have hstart : o.Written d.store ∧ c₁.tapes = c.tapes := by
    unfold dialogueFor at hopen
    split at hopen
    · next ho =>
      cases hopen
      exact ⟨h.outline _ ho d hd, rfl⟩
    · cases hopen
      exact ⟨Outline.written_start _ _, rfl⟩
  refine ⟨haccounted, ?_, ?_, ?_⟩
  · exact fun t ht => h.tapes t (hstart.2 ▸ ht)
  · rintro _ ⟨⟩
    exact (h.draft d hd).grows hgrows
  · rintro _ ⟨⟩ _ ⟨⟩
    exact hstart.1.addLine hadd

/-- Whatever a line declares, the dialogues lead on. -/
theorem Coherent.readContent (h : c.Coherent) (hsort : l.kind = .route ∨ c.outline = none)
    (hread : c.readContent l = .ok c') : c'.Coherent := by
  have haccounted := h.accounted.readContent hread
  rw [Compilation.readContent] at hread
  cases hkind : l.kind <;> simp only [hkind] at hread
  case state =>
    obtain ⟨c₁, line, hseal, -, -, rfl⟩ := readState_eq_ok_iff.mp hread
    have h₁ := h.sealDraft hseal
    have hne : l.kind ≠ .route := by simp [hkind]
    have hnone := (outline_sealDraft hseal).trans (hsort.resolve_left hne)
    refine ⟨haccounted, h₁.tapes, ?_, fun opened hopened => ?_⟩
    · rintro _ ⟨⟩
      exact leads_empty _
    · cases hnone.symm.trans hopened
  case rule =>
    obtain ⟨d, line, store, hd, -, hstore, rfl⟩ := readRule_eq_ok_iff.mp hread
    obtain ⟨n, hgrows⟩ := exists_grows_storeRuleText hstore
    have hnone := hsort.resolve_left (by simp [hkind])
    exact h.store hnone hd { d with store, rules := d.rules ++ [line.rule] } hgrows rfl
      haccounted rfl rfl rfl
  case route => exact h.readRoute hread haccounted
  case text =>
    obtain ⟨d, line, store, keys, hd, -, hstore, rfl⟩ := readText_eq_ok_iff.mp hread
    obtain ⟨n, hgrows⟩ := exists_grows_storeTextLine d.store line
    rw [hstore] at hgrows
    have hnone := hsort.resolve_left (by simp [hkind])
    exact h.store hnone hd { d with store } hgrows rfl haccounted rfl rfl rfl
  all_goals
    cases hread
    exact ⟨haccounted, h.tapes, h.draft, h.outline⟩

/-- The dialogues of a compiled tape lead on. -/
theorem exists_leads_of_compile {source : String} {script : CompiledScript}
    (h : compile source = .ok script) {t : Tape} (ht : t ∈ script.tapes) :
    ∃ store routes, t.text = LineStore.toBook store routes ∧ Leads store routes := by
  obtain ⟨ls, c, -, hread, hfinish⟩ := compile_eq_ok_iff.mp h
  obtain ⟨c₁, c₂, hclose, hseal, rfl⟩ := finish_eq_ok_iff.mp hfinish
  have hc : c.Coherent := readLines_induction hread coherent_start
    (fun _ _ hc hclose => hc.closeOutline hclose)
    fun _ _ _ hc hsort hread => hc.readContent hsort hread
  exact ((hc.closeOutline hclose).sealDraft hseal).tapes t ht

end Compilation

/-- The choices of a compiled tape have labels and lead to nodes of the tape whose texts have
lines. -/
theorem CompiledInMemory.leads {t : Tape} (ht : CompiledInMemory t) {name : String}
    {node : DialogueNode} (hnode : t.text.route? name = some node) {c : Choice}
    (hc : c ∈ node.choices) :
    t.text.hasLine c.label = true ∧ ∃ next, t.text.route? c.next = some next ∧
      ∀ key ∈ next.text, t.text.hasLine key = true := by
  have hfits : t.text.Fits := fun name => Nat.le_of_lt (ht.lineCount_lt name)
  obtain ⟨source, script, -, hcompile, ht⟩ := ht
  obtain ⟨store, routes, htext, hleads⟩ := Compilation.exists_leads_of_compile hcompile ht
  rw [htext] at hfits hnode ⊢
  obtain ⟨hlabel, next, hnext, hkeys⟩ := hleads name node hnode c hc
  exact ⟨hlabel.hasLine hfits, next, hnext, fun key hkey => (hkeys key hkey).hasLine hfits⟩

/-- **Compiled dialogue does not dangle.** The choices of a compiled tape have labels and lead to
nodes of the tape whose texts have lines, and its ranges lie within its lines. So neither the target
nor the label of a choice, nor a text of a node that a choice leads to, nor a range is ever listed
among the problems of the tape. -/
theorem compiled_dialogue_leads {t : Tape} (ht : CompiledInMemory t) :
    (∀ name node, t.text.route? name = some node → ∀ c ∈ node.choices,
      t.text.hasLine c.label = true ∧ ∃ next, t.text.route? c.next = some next ∧
        ∀ key ∈ next.text, t.text.hasLine key = true) ∧
    t.text.Ranged ∧
    (∀ target name : String, .missingTarget target s!"stitch of route node '{name}'" ∉ t.problems) ∧
    (∀ key name : String, .missingText key s!"choice of route node '{name}'" ∉ t.problems) ∧
    (∀ name node, t.text.route? name = some node → ∀ c ∈ node.choices, ∀ key,
      .missingText key s!"route node '{c.next}'" ∉ t.problems) ∧
    ∀ name start stop count, .badRange name start stop count ∉ t.problems := by
  have hranged : t.text.Ranged := by
    obtain ⟨source, script, -, hcompile, hmem⟩ := ht
    exact Compiled.ranged ⟨source, script, hcompile, hmem⟩
  refine ⟨fun _ _ hnode _ hc => ht.leads hnode hc, hranged, ?_, ?_, ?_, ?_⟩
  · intro target name hmissing
    obtain ⟨hnone, node, hnode, c, hc, rfl⟩ := Tape.of_missingTarget_choice hmissing
    obtain ⟨-, next, hnext, -⟩ := ht.leads hnode hc
    cases hnone.symm.trans hnext
  · intro key name hmissing
    obtain ⟨hline, node, hnode, c, hc, rfl⟩ := Tape.of_missingText_choice hmissing
    cases hline.symm.trans (ht.leads hnode hc).1
  · intro name node hnode c hc key hmissing
    obtain ⟨-, next, hnext, hkeys⟩ := ht.leads hnode hc
    obtain ⟨hline, next', hnext', hkey⟩ := Tape.of_missingText_node hmissing
    cases hnext.symm.trans hnext'
    cases hline.symm.trans (hkeys key hkey)
  · exact fun name start stop count => Tape.not_badRange hranged

/-! ### A dialogue to follow -/

namespace Gate

/-- The troll answers twice, once in turns. -/
def script : String :=
  "== GATE [GATE, troll]\n++ ()-[?troll]->() #ASK Who goes?\n-- [Me] It is me.\n" ++
  "--- (?<Well.><Well, well.>)\n---- [Please] May I pass?\n----- Yes.</>Go on.\n" ++
  "----> Back\n-- [Nobody] Nobody."

/-- The script compiles to a tape with the root and the three choices of the talk. -/
theorem exists_compiled : ∃ t, CompiledInMemory t ∧ t.label = "GATE" ∧
    t.text.routes.names = ["ASK", "ASK-1", "ASK-1-1", "ASK-2"] := by
  have hnames : (compile script).toOption.map (fun s =>
      s.tapes.map fun t => (t.label, t.text.routes.names)) =
        some [("GATE", ["ASK", "ASK-1", "ASK-1-1", "ASK-2"])] := by
    decide +kernel
  obtain ⟨s, hcompile, htapes⟩ := exists_script_of_map hnames
  obtain ⟨t, ht, hboth⟩ := List.map_eq_singleton_iff.mp htapes
  obtain ⟨hlabel, hroutes⟩ := Prod.mk.inj hboth
  have hmem : t ∈ s.tapes := ht ▸ List.mem_cons_self
  exact ⟨t, ⟨script, s, by decide +kernel, hcompile, hmem⟩, hlabel, hroutes⟩

end Gate

/-- The talk at the gate does not dangle. -/
theorem gate_dialogue_leads :
    ∃ t, CompiledInMemory t ∧ t.label = "GATE" ∧
      t.text.routes.names = ["ASK", "ASK-1", "ASK-1-1", "ASK-2"] ∧
      (∀ name node, t.text.route? name = some node → ∀ c ∈ node.choices,
        t.text.hasLine c.label = true ∧ ∃ next, t.text.route? c.next = some next ∧
          ∀ key ∈ next.text, t.text.hasLine key = true) ∧
      t.text.Ranged ∧
      (∀ target name : String,
        .missingTarget target s!"stitch of route node '{name}'" ∉ t.problems) ∧
      (∀ key name : String, .missingText key s!"choice of route node '{name}'" ∉ t.problems) ∧
      (∀ name node, t.text.route? name = some node → ∀ c ∈ node.choices, ∀ key,
        .missingText key s!"route node '{c.next}'" ∉ t.problems) ∧
      ∀ name start stop count, .badRange name start stop count ∉ t.problems := by
  obtain ⟨t, ht, hlabel, hroutes⟩ := Gate.exists_compiled
  exact ⟨t, ht, hlabel, hroutes, compiled_dialogue_leads ht⟩

end StoryTape.Script
