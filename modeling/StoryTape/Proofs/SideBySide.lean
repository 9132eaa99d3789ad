import StoryTape.Proofs.DeclaredLines
import StoryTape.Proofs.TakenNames
import StoryTape.Proofs.WorldContents

/-!
# Compilations side by side

Two compilations that take the same lines under different numbers do the same, also when one of
them has sealed tapes before: every line adds to the open tape, to the open dialogue, to the names
used so far and to the index what does not depend on the rest. All that can come between them is a
label or a node name that the earlier tapes have taken. Side by side, the compilations therefore end
with the same tapes, parts and identifiers, those of the earlier tapes in front.
-/

namespace StoryTape.Script

open Text

/-! ### What is added to an index -/

namespace TagIndex

/-- Putting an identifier in adds it and no other. -/
theorem mem_insert {index : TagIndex} {value value' : String} :
    value' ∈ (index.insert value).values ↔ value' ∈ index.values ∨ value' = value := by
  have h : (∃ b ∈ (index.insert value).values, id b = value') ↔
      id value = value' ∨ ∃ b ∈ index.values, id b = value' := Ascending.exists_key_insert_iff
  simpa [or_comm, eq_comm] using h

/-- What is added does not depend on what the index has. -/
def Adds (f : TagIndex → TagIndex) : Prop :=
  ∃ added : String → Prop, ∀ index value,
    value ∈ (f index).values ↔ value ∈ index.values ∨ added value

/-- What is added by one step after the other does not depend on the index, if no step does. -/
theorem adds_foldl {α : Type} {f : TagIndex → α → TagIndex} (hf : ∀ a, Adds fun index => f index a)
    (xs : List α) : Adds fun index => xs.foldl f index := by
  induction xs with
  | nil => exact ⟨fun _ => False, by simp⟩
  | cons a xs ih =>
    obtain ⟨first, hfirst⟩ := hf a
    obtain ⟨rest, hrest⟩ := ih
    refine ⟨fun value => first value ∨ rest value, fun index value => ?_⟩
    have hboth := hrest (f index a) value
    rw [hfirst index value, or_assoc] at hboth
    exact hboth

/-- What a tag adds does not depend on the index. -/
theorem adds_addTag (t : Tag) : Adds fun index => index.addTag t := by
  by_cases h : (t.isTemplate || isCounter t.value) = true
  · exact ⟨fun _ => False, fun index value => by simp only [addTag, if_pos h, or_false]⟩
  · exact ⟨(· = t.value), fun index value => by simp only [addTag, if_neg h, mem_insert]⟩

/-- What a set adds does not depend on the index. -/
theorem adds_addSet (s : TagSet) : Adds fun index => index.addSet s :=
  adds_foldl adds_addTag s.tags

/-- What a world adds does not depend on the index. -/
theorem adds_addWorld (w : World) : Adds fun index => index.addWorld w :=
  adds_foldl (fun l : Location => adds_addSet l.tags) w.locations

/-- What a choice adds does not depend on the index. -/
theorem adds_addChoice (c : Choice) : Adds fun index => index.addChoice c :=
  adds_foldl adds_addSet [c.context, c.cost, c.payload, c.gain]

/-- What a rule adds does not depend on the index. -/
theorem adds_addRule (r : Rule) : Adds fun index => index.addRule r := by
  obtain ⟨first, hfirst⟩ := adds_addTag r.target
  obtain ⟨rest, hrest⟩ := adds_foldl adds_addSet [r.context, r.cost, r.payload, r.gain]
  refine ⟨fun value => first value ∨ rest value, fun index value => ?_⟩
  have hboth := hrest (index.addTag r.target) value
  rw [hfirst index value, or_assoc] at hboth
  exact hboth

end TagIndex

/-- What nodes add does not depend on the index. -/
theorem adds_indexNodes (nodes : List (String × DialogueNode)) :
    TagIndex.Adds fun index => indexNodes index nodes :=
  TagIndex.adds_foldl (fun node : String × DialogueNode =>
    TagIndex.adds_foldl TagIndex.adds_addChoice node.2.choices) nodes

namespace Compilation

variable {base c c' d : Compilation} {l : ScriptLine}

/-- No label and no node name is one that another compilation has taken. -/
structure Apart (base c : Compilation) : Prop where
  labels : ∀ label ∈ c.labels, label ∉ base.labels
  routeNames : ∀ name ∈ c.routeNames, name ∉ base.routeNames

/-- With fewer names two compilations stay apart. -/
theorem Apart.of_subset (h : Apart base d) (hlabels : c.labels ⊆ d.labels)
    (hnames : c.routeNames ⊆ d.routeNames) : Apart base c :=
  ⟨fun label hlabel => h.labels label (hlabels hlabel),
    fun name hname => h.routeNames name (hnames hname)⟩

/-! ### Side by side -/

/-- The second compilation does what the first does, with the lines renumbered, the sealed tapes,
names and identifiers of `base` besides, and the parts of `base` in place of the `earlier` ones. -/
structure Beside (base : Compilation) (earlier : List (Nat × Part)) (move : Nat → Nat)
    (c c' : Compilation) : Prop where
  tapes : c'.tapes = base.tapes ++ c.tapes
  labels : c'.labels = base.labels ++ c.labels
  routeNames : c'.routeNames = base.routeNames ++ c.routeNames
  parts : ∃ later, c.parts = earlier ++ later ∧
    c'.parts = base.parts ++ later.map fun (number, part) => (move number, part)
  index : ∀ value, value ∈ c'.index.values ↔ value ∈ base.index.values ∨ value ∈ c.index.values
  draft : c'.draft = c.draft
  outline : c'.outline = c.outline.map fun (start, o) => (move start, o)

section Steps

variable {earlier : List (Nat × Part)} {move : Nat → Nat}

/-- A part noted in both compilations leaves them side by side. -/
theorem Beside.note (h : Beside base earlier move c c') (number : Nat) (part : Part) :
    Beside base earlier move (c.note number part) (c'.note (move number) part) := by
  obtain ⟨later, hparts, hparts'⟩ := h.parts
  refine { h with parts := ⟨later ++ [(number, part)], ?_, ?_⟩ }
  · simp only [Compilation.note, hparts, List.append_assoc]
  · simp only [Compilation.note, hparts', List.map_append, List.append_assoc, List.map_cons,
      List.map_nil]

/-- What is added to both indexes is found in both. -/
theorem Beside.index_adds (h : Beside base earlier move c c') {f : TagIndex → TagIndex}
    (hf : TagIndex.Adds f) (value : String) :
    value ∈ (f c'.index).values ↔ value ∈ base.index.values ∨ value ∈ (f c.index).values := by
  obtain ⟨added, hadded⟩ := hf
  rw [hadded, hadded, h.index, or_assoc]

/-- Nodes added in both compilations leave them side by side. -/
theorem Beside.withNodes (h : Beside base earlier move c c') (d : Draft)
    (nodes : List (String × DialogueNode)) :
    Beside base earlier move (c.withNodes d nodes) (c'.withNodes d nodes) where
  tapes := h.tapes
  labels := h.labels
  routeNames := by
    simp only [Compilation.withNodes, h.routeNames, List.append_assoc]
  parts := h.parts
  index := h.index_adds (adds_indexNodes nodes)
  draft := rfl
  outline := h.outline

/-- Both dialogues dropped. -/
theorem Beside.dropOutline (h : Beside base earlier move c c') :
    Beside base earlier move { c with outline := none } { c' with outline := none } :=
  { h with outline := rfl }

/-- The same draft opened on both sides. -/
theorem Beside.setDraft (h : Beside base earlier move c c') (draft : Option Draft) :
    Beside base earlier move { c with draft } { c' with draft } :=
  { h with draft := rfl }

/-- The second compilation closes its dialogue as the first does. -/
theorem Beside.closeOutline (h : Beside base earlier move c c') (hc : c.closeOutline = .ok d)
    (hapart : Apart base d) :
    ∃ d', c'.closeOutline = .ok d' ∧ Beside base earlier move d d' := by
  rcases closeOutline_eq_ok_iff.mp hc with
    ⟨hnone, rfl⟩ | ⟨start, o, draft, nodes, ho, hdraft, hnodes, hnew, rfl⟩
  · have hnone' : c'.outline = none := by rw [h.outline, hnone, Option.map_none]
    exact ⟨c', closeOutline_eq_ok_iff.mpr (.inl ⟨hnone', rfl⟩), h⟩
  · have ho' : c'.outline = some (move start, o) := by rw [h.outline, ho, Option.map_some]
    have hnew' : NewNames c'.routeNames nodes := by
      rw [h.routeNames]
      refine hnew.append fun node hnode => hapart.routeNames node.1 ?_
      exact List.mem_append_right _ (List.mem_map_of_mem hnode)
    refine ⟨_, closeOutline_eq_ok_iff.mpr (.inr ?_), h.dropOutline.withNodes draft nodes⟩
    exact ⟨move start, o, draft, nodes, ho', h.draft.trans hdraft, hnodes, hnew', rfl⟩

/-- The second compilation seals its tape as the first does. -/
theorem Beside.sealDraft (h : Beside base earlier move c c') (hc : c.sealDraft = .ok d) :
    ∃ d', c'.sealDraft = .ok d' ∧ Beside base earlier move d d' := by
  rcases sealDraft_eq_ok_iff.mp hc with ⟨hnone, rfl⟩ | ⟨draft, t, hdraft, hseal, rfl⟩
  · exact ⟨c', sealDraft_eq_ok_iff.mpr (.inl ⟨h.draft.trans hnone, rfl⟩), h⟩
  · refine ⟨_, sealDraft_eq_ok_iff.mpr (.inr ⟨draft, t, h.draft.trans hdraft, hseal, rfl⟩), ?_⟩
    have htapes : c'.tapes ++ [t] = base.tapes ++ (c.tapes ++ [t]) := by
      rw [h.tapes, List.append_assoc]
    exact { h with tapes := htapes, draft := rfl }

/-- The second compilation reads a state line as the first does. -/
theorem Beside.readState (h : Beside base earlier move c c') (hc : c.readState l = .ok d)
    (hapart : Apart base d) :
    ∃ d', c'.readState (l.renumber move) = .ok d' ∧ Beside base earlier move d d' := by
  obtain ⟨c₁, line, hseal, hline, hnew, rfl⟩ := readState_eq_ok_iff.mp hc
  obtain ⟨c₁', hseal', h₁⟩ := h.sealDraft hseal
  have hfree : lowerText line.label ∉ base.labels :=
    hapart.labels _ (List.mem_append_right _ List.mem_cons_self)
  have hnew' : lowerText line.label ∉ c₁'.labels := by
    rw [h₁.labels, List.mem_append, not_or]
    exact ⟨hfree, hnew⟩
  refine ⟨_, readState_eq_ok_iff.mpr ⟨c₁', line, hseal', hline, hnew', rfl⟩, ?_⟩
  have hlabels : c₁'.labels ++ [lowerText line.label] =
      base.labels ++ (c₁.labels ++ [lowerText line.label]) := by
    rw [h₁.labels, List.append_assoc]
  have hindex := h₁.index_adds (TagIndex.adds_addWorld line.world)
  apply Beside.note
  exact { h₁ with labels := hlabels, index := hindex, draft := rfl }

/-- The second compilation reads a rule line as the first does. -/
theorem Beside.readRule (h : Beside base earlier move c c') (hc : c.readRule l = .ok d) :
    ∃ d', c'.readRule (l.renumber move) = .ok d' ∧ Beside base earlier move d d' := by
  obtain ⟨draft, line, store, hdraft, hline, hstore, rfl⟩ := readRule_eq_ok_iff.mp hc
  have hdraft' := h.draft.trans hdraft
  refine ⟨_, readRule_eq_ok_iff.mpr ⟨draft, line, store, hdraft', hline, hstore, rfl⟩, ?_⟩
  have hindex := h.index_adds (TagIndex.adds_addRule line.rule)
  apply Beside.note
  exact { h with index := hindex, draft := rfl }

/-- Where one compilation starts a dialogue the other does, too. -/
theorem Beside.dialogueFor (h : Beside base earlier move c c') {draft : Draft} {number start : Nat}
    {o : Outline} (hc : c.dialogueFor draft number = (d, start, o)) :
    ∃ d', c'.dialogueFor draft (move number) = (d', move start, o) ∧
      Beside base earlier move d d' := by
  unfold Compilation.dialogueFor at hc ⊢
  rw [h.outline]
  cases hopen : c.outline with
  | none =>
    rw [hopen] at hc
    obtain ⟨rfl, rfl, rfl⟩ := hc
    exact ⟨_, rfl, h.note _ _⟩
  | some opened =>
    rw [hopen] at hc
    obtain ⟨rfl, rfl, rfl⟩ := hc
    exact ⟨_, rfl, h⟩

/-- The second compilation reads a line of dialogue as the first does. -/
theorem Beside.readRoute (h : Beside base earlier move c c') (hc : c.readRoute l = .ok d) :
    ∃ d', c'.readRoute (l.renumber move) = .ok d' ∧ Beside base earlier move d d' := by
  obtain ⟨draft, c₁, start, o, o', store, hdraft, hopen, hadd, rfl⟩ := readRoute_eq_ok_iff.mp hc
  obtain ⟨c₁', hopen', h₁⟩ := h.dialogueFor hopen
  have hdraft' := h.draft.trans hdraft
  refine ⟨_, readRoute_eq_ok_iff.mpr
    ⟨draft, c₁', move start, o, o', store, hdraft', hopen', hadd, rfl⟩, ?_⟩
  exact { h₁ with draft := rfl, outline := rfl }

/-- The second compilation reads a text line as the first does. -/
theorem Beside.readText (h : Beside base earlier move c c') (hc : c.readText l = .ok d) :
    ∃ d', c'.readText (l.renumber move) = .ok d' ∧ Beside base earlier move d d' := by
  obtain ⟨draft, line, store, keys, hdraft, hline, hstore, rfl⟩ := readText_eq_ok_iff.mp hc
  have hdraft' := h.draft.trans hdraft
  refine ⟨_, readText_eq_ok_iff.mpr ⟨draft, line, store, keys, hdraft', hline, hstore, rfl⟩, ?_⟩
  exact (h.setDraft _).note _ _

/-- The second compilation reads a line as the first does, whatever it declares. -/
theorem Beside.readContent (h : Beside base earlier move c c') (hc : c.readContent l = .ok d)
    (hapart : Apart base d) :
    ∃ d', c'.readContent (l.renumber move) = .ok d' ∧ Beside base earlier move d d' := by
  have hkind : (l.renumber move).kind = l.kind := rfl
  rw [Compilation.readContent] at hc ⊢
  rw [hkind]
  cases hl : l.kind <;> rw [hl] at hc
  case state => exact h.readState hc hapart
  case rule => exact h.readRule hc
  case route => exact h.readRoute hc
  case text => exact h.readText hc
  case comment =>
    cases hc
    exact ⟨_, rfl, h.note _ _⟩
  all_goals
    cases hc
    exact ⟨c', rfl, h⟩

/-- A line keeps two compilations side by side. -/
theorem Beside.readLine (h : Beside base earlier move c c') (hc : c.readLine l = .ok d)
    (hapart : Apart base d) :
    ∃ d', c'.readLine (l.renumber move) = .ok d' ∧ Beside base earlier move d d' := by
  by_cases hkind : l.kind = .route
  · have hkind' : (l.renumber move).kind = .route := hkind
    obtain ⟨d', hd', hbeside⟩ := h.readRoute ((readLine_route hkind).mp hc)
    exact ⟨d', (readLine_route hkind').mpr hd', hbeside⟩
  · obtain ⟨c₁, hclose, hcontent⟩ := (readLine_of_ne_route hkind).mp hc
    obtain ⟨hlabels, hnames⟩ := names_readContent hcontent
    obtain ⟨c₁', hclose', h₁⟩ := h.closeOutline hclose
      (hapart.of_subset hlabels (hnames ▸ List.Subset.refl _))
    have hkind' : (l.renumber move).kind ≠ .route := hkind
    obtain ⟨d', hd', hbeside⟩ := h₁.readContent hcontent hapart
    exact ⟨d', (readLine_of_ne_route hkind').mpr ⟨c₁', hclose', hd'⟩, hbeside⟩

/-- So do all lines of a script. -/
theorem Beside.readLines (h : Beside base earlier move c c') {ls : List ScriptLine}
    (hc : ls.foldlM Compilation.readLine c = .ok d) (hapart : Apart base d) :
    ∃ d', (ls.map (·.renumber move)).foldlM Compilation.readLine c' = .ok d' ∧
      Beside base earlier move d d' := by
  induction ls generalizing c c' with
  | nil =>
    rw [List.foldlM_nil, pure_eq_ok_iff] at hc
    exact ⟨c', rfl, hc ▸ h⟩
  | cons l ls ih =>
    rw [List.foldlM_cons] at hc
    obtain ⟨c₁, hfirst, hrest⟩ := bind_eq_ok_iff.mp hc
    -- Names stay taken, so what is apart at the end is apart all along.
    obtain ⟨hlabels, hnames⟩ := names_readLines hrest
    obtain ⟨c₁', hfirst', h₁⟩ := h.readLine hfirst (hapart.of_subset hlabels hnames)
    obtain ⟨d', hrest', hbeside⟩ := ih h₁ hrest
    refine ⟨d', ?_, hbeside⟩
    rw [List.map_cons, List.foldlM_cons]
    exact bind_eq_ok_iff.mpr ⟨c₁', hfirst', hrest'⟩

/-- Compilations side by side end side by side. -/
theorem Beside.finish (h : Beside base earlier move c c') {script : CompiledScript}
    (hc : c.finish = .ok script) (hclosed : ∀ d, c.closeOutline = .ok d → Apart base d) :
    ∃ script', c'.finish = .ok script' ∧ script'.tapes = base.tapes ++ script.tapes ∧
      (∃ later, script.parts = earlier ++ later ∧
        script'.parts = base.parts ++ later.map fun (number, part) => (move number, part)) ∧
      ∀ value, value ∈ script'.index.values ↔
        value ∈ base.index.values ∨ value ∈ script.index.values := by
  obtain ⟨c₁, c₂, hclose, hseal, rfl⟩ := finish_eq_ok_iff.mp hc
  obtain ⟨c₁', hclose', h₁⟩ := h.closeOutline hclose (hclosed c₁ hclose)
  obtain ⟨c₂', hseal', h₂⟩ := h₁.sealDraft hseal
  exact ⟨_, finish_eq_ok_iff.mpr ⟨c₁', c₂', hclose', hseal', rfl⟩, h₂.tapes, h₂.parts, h₂.index⟩

end Steps

end Compilation

end StoryTape.Script
