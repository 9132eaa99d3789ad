import StoryTape.Proofs.DeclaredLines
import StoryTape.Proofs.Dialogues

/-!
# A script told in chapters

What the lines of a script become is noted while they are read, and the tapes are sealed later. Both
tell the same story: up to the first state line nothing but comments is noted, and from then on each
state line opens a chapter. The chapters are those of the tapes, one after the other. The rules of a
chapter are those of its tape, and the dialogues of a chapter are nodes of its tape.
-/

namespace StoryTape.Script

open Text

namespace Part

/-- The label of an opened tape. -/
def label? : Part → Option String
  | .state label => some label
  | _ => none

/-- The rule that a line became. -/
def rule? : Part → Option Rule
  | .rule r => some r
  | _ => none

/-- The name of the dialogue that a line started. -/
def root? : Part → Option String
  | .route root => some root
  | _ => none

/-- Whether the line was a comment. -/
def IsComment (part : Part) : Prop := ∃ content, part = .comment content

/-- A part that starts no dialogue has nothing to fulfil for its name. -/
theorem forall_root_of_eq_none {part : Part} (h : part.root? = none) {P : String → Prop} :
    ∀ root ∈ part.root?, P root := by
  intro root hroot
  cases h.symm.trans hroot

end Part

/-- The parts of a chapter: a state line with the label, no other state line, and in order the
rules. The dialogues have known names. -/
structure Chapter (label : String) (rules : List Rule) (known : String → Prop)
    (parts : List (Nat × Part)) : Prop where
  opens : ∃ number rest, parts = (number, .state label) :: rest ∧ ∀ part ∈ rest, part.2.label? = none
  rules_eq : parts.filterMap (·.2.rule?) = rules
  knows : ∀ part ∈ parts, ∀ root ∈ part.2.root?, known root

/-- The parts are the chapter of a tape. -/
def ChapterOf (t : Tape) (parts : List (Nat × Part)) : Prop :=
  Chapter t.label t.rules (fun root => ∃ node, t.text.route? root = some node) parts

namespace Chapter

variable {label : String} {rules : List Rule} {known known' : String → Prop}
  {parts added : List (Nat × Part)}

/-- A state line opens a chapter without rules. -/
theorem opened (number : Nat) (label : String) (known : String → Prop) :
    Chapter label [] known [(number, .state label)] := by
  refine ⟨⟨number, [], rfl, List.forall_mem_nil _⟩, rfl, ?_⟩
  exact List.forall_mem_singleton.mpr (Part.forall_root_of_eq_none rfl)

/-- A chapter goes on with parts that open no other, while names become known. -/
theorem append (h : Chapter label rules known parts) (hmono : ∀ root, known root → known' root)
    (hlabel : ∀ part ∈ added, part.2.label? = none)
    (hknown : ∀ part ∈ added, ∀ root ∈ part.2.root?, known' root) :
    Chapter label (rules ++ added.filterMap (·.2.rule?)) known' (parts ++ added) := by
  obtain ⟨⟨number, rest, rfl, hrest⟩, hrules, hroots⟩ := h
  refine ⟨⟨number, rest ++ added, rfl, fun part hpart => ?_⟩, ?_, fun part hpart root hroot => ?_⟩
  · exact (List.mem_append.mp hpart).elim (hrest part) (hlabel part)
  · rw [List.filterMap_append, hrules]
  · rcases List.mem_append.mp hpart with hpart | hpart
    · exact hmono root (hroots part hpart root hroot)
    · exact hknown part hpart root hroot

/-- A chapter stays one while names become known. -/
theorem mono (h : Chapter label rules known parts) (hmono : ∀ root, known root → known' root) :
    Chapter label rules known' parts :=
  ⟨h.opens, h.rules_eq, fun part hpart root hroot => hmono root (h.knows part hpart root hroot)⟩

/-- A chapter has the label of its tape and no other. -/
theorem labels_eq (h : Chapter label rules known parts) :
    parts.filterMap (·.2.label?) = [label] := by
  obtain ⟨number, rest, rfl, hrest⟩ := h.opens
  exact congrArg (label :: ·) (List.filterMap_eq_nil_iff.mpr hrest)

end Chapter

namespace Compilation

variable {c c' : Compilation} {l : ScriptLine} {d d' : Draft} {name : String}

/-- The parts so far are comments and then the chapters of the sealed tapes. -/
def Told (c : Compilation) (parts : List (Nat × Part)) : Prop :=
  ∃ opening chapters, parts = opening ++ chapters.flatten ∧
    (∀ part ∈ opening, part.2.IsComment) ∧ List.Forall₂ ChapterOf c.tapes chapters

/-- A node of the open tape has the name, or the open dialogue has it and will become a node. -/
def Knows (c : Compilation) (d : Draft) (name : String) : Prop :=
  name ∈ d.routes.names ∨ ∃ opened ∈ c.outline, opened.2.root = name

/-- Where a script is in its story: before the first tape, or in the chapter of the open one. -/
inductive Storied (c : Compilation) : Prop
  | before (hdraft : c.draft = none) (houtline : c.outline = none) (htapes : c.tapes = [])
      (hparts : ∀ part ∈ c.parts, part.2.IsComment)
  | within (d : Draft) (hdraft : c.draft = some d) (told current : List (Nat × Part))
      (hparts : c.parts = told ++ current) (htold : c.Told told)
      (hcurrent : Chapter d.label d.rules (c.Knows d) current)

/-- A step goes on with the chapter of the open tape: the parts it adds open no other, hold the rules
it adds to the tape, and their dialogues are known. -/
structure Continues (c c' : Compilation) (d d' : Draft) (added : List (Nat × Part)) : Prop where
  draft : c.draft = some d
  draft' : c'.draft = some d'
  tapes : c'.tapes = c.tapes
  label : d'.label = d.label
  parts : c'.parts = c.parts ++ added
  rules : d'.rules = d.rules ++ added.filterMap (·.2.rule?)
  knows : ∀ name, c.Knows d name → c'.Knows d' name
  noLabel : ∀ part ∈ added, part.2.label? = none
  roots : ∀ part ∈ added, ∀ root ∈ part.2.root?, c'.Knows d' root

/-- A step that goes on with the chapter of the open tape goes on with the story. -/
theorem Storied.continues {added : List (Nat × Part)} (h : c.Storied)
    (hstep : Continues c c' d d' added) : c'.Storied := by
  rcases h with ⟨hnone, -, -, -⟩ | ⟨_, hsome, told, current, hsplit, htold, hcurrent⟩
  · cases hnone.symm.trans hstep.draft
  · cases hsome.symm.trans hstep.draft
    refine .within d' hstep.draft' told (current ++ added) ?_ ?_ ?_
    · rw [hstep.parts, hsplit, List.append_assoc]
    · rwa [Told, hstep.tapes]
    · rw [hstep.label, hstep.rules]
      exact hcurrent.append hstep.knows hstep.noLabel hstep.roots

/-- Closing a dialogue makes nodes of it, so its name stays known. -/
theorem Storied.closeOutline (h : c.Storied) (hclose : c.closeOutline = .ok c') : c'.Storied := by
  rcases closeOutline_eq_ok_iff.mp hclose with
    ⟨-, rfl⟩ | ⟨start, o, d, nodes, ho, hd, hnodes, -, rfl⟩
  · exact h
  · obtain ⟨-, -, rfl⟩ := Outline.nodes_eq_ok_iff.mp hnodes
    refine h.continues
      { draft := hd, draft' := rfl, tapes := rfl, label := rfl
        parts := (List.append_nil _).symm
        rules := (List.append_nil _).symm
        knows := fun name hname => .inl (mem_names_insertNodes.mpr ?_)
        noLabel := List.forall_mem_nil _
        roots := List.forall_mem_nil _ }
    rcases hname with hname | ⟨opened, hopened, rfl⟩
    · exact .inl hname
    · -- The root of a dialogue is the first of its nodes.
      cases ho.symm.trans hopened
      exact .inr List.mem_cons_self

/-- Sealing the open tape ends its chapter. -/
theorem Storied.sealDraft (h : c.Storied) (hnone : c.outline = none)
    (hseal : c.sealDraft = .ok c') : c'.Told c'.parts := by
  rcases h with ⟨hdraft, -, htapes, hparts⟩ |
    ⟨d, hdraft, _, current, hparts, ⟨opening, chapters, rfl, hopening, hchapters⟩, hcurrent⟩
  · rcases sealDraft_eq_ok_iff.mp hseal with ⟨-, rfl⟩ | ⟨d, _, hd, -, -⟩
    · exact ⟨_, [], (List.append_nil _).symm, hparts, htapes ▸ .nil⟩
    · cases hdraft.symm.trans hd
  · rcases sealDraft_eq_ok_iff.mp hseal with ⟨hd, -⟩ | ⟨_, t, hd, ht, rfl⟩
    · cases hdraft.symm.trans hd
    · cases hdraft.symm.trans hd
      -- No dialogue is open, so a name that is known is that of a node.
      have hchapter : ChapterOf t current := by
        obtain ⟨w, w', -, -, rfl⟩ := Draft.seal_eq_ok ht
        refine hcurrent.mono fun name hname => ?_
        rcases hname with hname | ⟨opened, hopened, -⟩
        · exact Dict.mem_names_iff.mp hname
        · cases hnone.symm.trans hopened
      refine ⟨opening, chapters ++ [current], ?_, hopening, ?_⟩
      · simpa using hparts
      · exact List.rel_append hchapters (.cons hchapter .nil)

/-- A line of dialogue goes on with a known dialogue or notes a new one. -/
theorem Storied.readRoute (h : c.Storied) (hread : c.readRoute l = .ok c') : c'.Storied := by
  obtain ⟨d, c₁, start, o, o', store, hd, hopen, hadd, rfl⟩ := readRoute_eq_ok_iff.mp hread
  have hroot := Outline.root_addLine hadd
  unfold dialogueFor at hopen
  split at hopen
  · next ho =>
    cases hopen
    refine h.continues
      { draft := hd, draft' := rfl, tapes := rfl, label := rfl
        parts := (List.append_nil _).symm
        rules := (List.append_nil _).symm
        knows := fun name hname => hname.imp_right ?_
        noLabel := List.forall_mem_nil _
        roots := List.forall_mem_nil _ }
    rintro ⟨opened, hopened, rfl⟩
    cases ho.symm.trans hopened
    exact ⟨_, rfl, hroot⟩
  · next hnone =>
    cases hopen
    refine h.continues
      { draft := hd, draft' := rfl, tapes := rfl, label := rfl, parts := rfl
        rules := (List.append_nil _).symm
        knows := fun name hname => hname.imp_right ?_
        noLabel := List.forall_mem_singleton.mpr rfl
        roots := List.forall_mem_singleton.mpr ?_ }
    · rintro ⟨opened, hopened, -⟩
      cases hnone.symm.trans hopened
    · rintro _ ⟨⟩
      exact .inr ⟨_, rfl, hroot⟩

/-- A state line ends a chapter and opens the next; any other line goes on with the open one. -/
theorem Storied.readContent (h : c.Storied) (hsort : l.kind = .route ∨ c.outline = none)
    (hread : c.readContent l = .ok c') : c'.Storied := by
  rw [Compilation.readContent] at hread
  cases hkind : l.kind <;> simp only [hkind] at hread
  case state =>
    obtain ⟨c₁, line, hseal, -, -, rfl⟩ := readState_eq_ok_iff.mp hread
    have htold := h.sealDraft (hsort.resolve_left (by simp [hkind])) hseal
    exact .within _ rfl c₁.parts _ rfl htold (.opened _ _ _)
  case rule =>
    obtain ⟨d, line, store, hd, -, -, rfl⟩ := readRule_eq_ok_iff.mp hread
    exact h.continues
      { draft := hd, draft' := rfl, tapes := rfl, label := rfl, parts := rfl, rules := rfl
        knows := fun _ => id
        noLabel := List.forall_mem_singleton.mpr rfl
        roots := List.forall_mem_singleton.mpr (Part.forall_root_of_eq_none rfl) }
  case route => exact h.readRoute hread
  case text =>
    obtain ⟨d, line, store, keys, hd, -, -, rfl⟩ := readText_eq_ok_iff.mp hread
    exact h.continues
      { draft := hd, draft' := rfl, tapes := rfl, label := rfl, parts := rfl
        rules := (List.append_nil _).symm
        knows := fun _ => id
        noLabel := List.forall_mem_singleton.mpr rfl
        roots := List.forall_mem_singleton.mpr (Part.forall_root_of_eq_none rfl) }
  case comment =>
    cases hread
    cases hd : c.draft with
    | none =>
      rcases h with ⟨-, houtline, htapes, hparts⟩ | ⟨_, hsome, -⟩
      -- Before the first tape a comment belongs to no chapter.
      · refine .before hd houtline htapes fun part hpart => ?_
        rcases List.mem_append.mp hpart with hpart | hpart
        · exact hparts part hpart
        · exact ⟨_, congrArg Prod.snd (List.mem_singleton.mp hpart)⟩
      · cases hd.symm.trans hsome
    | some d =>
      exact h.continues
        { draft := hd, draft' := hd, tapes := rfl, label := rfl, parts := rfl
          rules := (List.append_nil _).symm
          knows := fun _ => id
          noLabel := List.forall_mem_singleton.mpr rfl
          roots := List.forall_mem_singleton.mpr (Part.forall_root_of_eq_none rfl) }
  all_goals
    cases hread
    exact h

/-- The parts stand under the numbers of their lines. -/
theorem numbers_readLine {taken : List ScriptLine}
    (h : (c.parts.map Prod.fst).Sublist (taken.map ScriptLine.number))
    (hread : c.readLine l = .ok c') :
    (c'.parts.map Prod.fst).Sublist ((taken ++ [l]).map ScriptLine.number) := by
  obtain ⟨c₁, hparts, hcontent⟩ : ∃ c₁ : Compilation, c₁.parts = c.parts ∧
      c₁.readContent l = .ok c' := by
    rcases readLine_cases hread with ⟨-, hcontent⟩ | ⟨-, c₁, hclose, hcontent⟩
    · exact ⟨c, rfl, hcontent⟩
    · exact ⟨c₁, parts_closeOutline hclose, hcontent⟩
  rw [List.map_append]
  rcases parts_readContent hcontent with hsame | ⟨part, hadded⟩
  · rw [hsame, hparts]
    exact h.trans (List.sublist_append_left _ _)
  · rw [hadded, hparts, List.map_append]
    exact h.append (.refl _)

end Compilation

/-- The labels in the chapters of tapes are those of the tapes, in order. -/
theorem labels_of_chapters {tapes : List Tape} {chapters : List (List (Nat × Part))}
    (h : List.Forall₂ ChapterOf tapes chapters) :
    chapters.flatten.filterMap (·.2.label?) = tapes.map Tape.label := by
  induction h with
  | nil => rfl
  | cons hchapter _ ih =>
    rw [List.flatten_cons, List.filterMap_append, hchapter.labels_eq, ih]
    rfl

/-- **Parts and tapes tell the same story.** The parts of a compiled script stand in the order of
their lines. Up to the first state line they are comments. From there on each tape has its chapter,
in the order of the tapes: a state line with the label of the tape, and up to the next state line
the rules of the tape in order, with their texts, and dialogues that are nodes of the tape. -/
theorem parts_tell_tapes {source : String} {script : CompiledScript}
    (h : compile source = .ok script) :
    (script.parts.map Prod.fst).Pairwise (· < ·) ∧
      script.parts.filterMap (·.2.label?) = script.tapes.map Tape.label ∧
      ∃ opening chapters, script.parts = opening ++ chapters.flatten ∧
        (∀ part ∈ opening, part.2.IsComment) ∧ List.Forall₂ ChapterOf script.tapes chapters := by
  obtain ⟨lines, c, hlines, hread, hfinish⟩ := compile_eq_ok_iff.mp h
  obtain ⟨c₁, c₂, hclose, hseal, rfl⟩ := Compilation.finish_eq_ok_iff.mp hfinish
  have hnumbers : (c.parts.map Prod.fst).Sublist (lines.map ScriptLine.number) :=
    foldlM_ok_taken (P := fun taken c => (c.parts.map Prod.fst).Sublist
      (taken.map ScriptLine.number)) hread .slnil
      fun _ _ _ _ _ _ hc hstep => Compilation.numbers_readLine hc hstep
  have hstoried : c.Storied := Compilation.readLines_induction hread
    (.before rfl rfl rfl (List.forall_mem_nil _)) (fun _ _ hc hclose => hc.closeOutline hclose)
    fun _ _ _ hc hsort hread => hc.readContent hsort hread
  obtain ⟨opening, chapters, hparts, hopening, hchapters⟩ :=
    (hstoried.closeOutline hclose).sealDraft (Compilation.outline_closeOutline hclose) hseal
  refine ⟨?_, ?_, opening, chapters, hparts, hopening, hchapters⟩
  · change (c₂.parts.map Prod.fst).Pairwise (· < ·)
    rw [Compilation.parts_sealDraft hseal, Compilation.parts_closeOutline hclose]
    exact List.Pairwise.sublist hnumbers (pairwise_number_of_splitScript hlines)
  · have hnone : opening.filterMap (·.2.label?) = [] := by
      refine List.filterMap_eq_nil_iff.mpr fun part hpart => ?_
      obtain ⟨content, hcontent⟩ := hopening part hpart
      rw [hcontent]
      rfl
    change c₂.parts.filterMap _ = _
    rw [hparts, List.filterMap_append, hnone, List.nil_append, labels_of_chapters hchapters]

namespace Travels

/-- An inn with a talk and a cave with a dragon. -/
def source : String :=
  "// Travels\n== INN [INN, host]\n++ ()-[?host]->() #HAIL Come in.\n-- [Yes] Thanks.\n" ++
  "== CAVE [CAVE, dragon]\n++ ()-[?dragon]->()"

/-- The script compiles to the two tapes and starts one dialogue. -/
theorem facts : (compile source).toOption.map (fun s =>
    (s.tapes.map Tape.label, s.parts.filterMap (·.2.root?))) =
    some (["INN", "CAVE"], ["HAIL"]) := by
  decide +kernel

end Travels

/-- The travels are told in two chapters, the first with a dialogue. -/
theorem travels_told :
    ∃ script, compile Travels.source = .ok script ∧ script.tapes.map Tape.label = ["INN", "CAVE"] ∧
      script.parts.filterMap (·.2.label?) = ["INN", "CAVE"] ∧
      script.parts.filterMap (·.2.root?) = ["HAIL"] ∧
      ∃ opening chapters, script.parts = opening ++ chapters.flatten ∧
        (∀ part ∈ opening, part.2.IsComment) ∧ List.Forall₂ ChapterOf script.tapes chapters := by
  obtain ⟨script, hcompile, hscript⟩ := exists_script_of_map Travels.facts
  obtain ⟨htapes, hroots⟩ := Prod.mk.inj hscript
  obtain ⟨-, hlabels, hchapters⟩ := parts_tell_tapes hcompile
  exact ⟨script, hcompile, htapes, hlabels.trans htapes, hroots, hchapters⟩

end StoryTape.Script
