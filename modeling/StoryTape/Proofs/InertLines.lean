import StoryTape.Proofs.JoinedScripts
import StoryTape.Proofs.OutlineLines

/-!
# Lines without effect

Comments, goals and steps add nothing to a tape. Still such a line closes the open dialogue, as
every line does that is not one of dialogue itself. Put in anywhere else it leaves the tapes as they
are. Put in between two lines of dialogue it cuts the dialogue in two of the same name, and the
script no longer compiles: it is the one place where these lines are not inert.
-/

namespace StoryTape.Script

open Text

/-- Whether a line adds nothing to a tape. -/
def LineKind.isInert : LineKind → Bool
  | .comment | .goal | .step => true
  | _ => false

namespace Compilation

variable {c d : Compilation} {l : ScriptLine}

/-- An inert line adds to the parts and to nothing else. -/
theorem exists_readContent_of_isInert (h : l.kind.isInert = true) :
    ∃ parts, c.readContent l = .ok { c with parts } := by
  rw [readContent]
  cases hkind : l.kind <;> rw [hkind] at h
  case comment => exact ⟨_, rfl⟩
  case goal => exact ⟨c.parts, rfl⟩
  case step => exact ⟨c.parts, rfl⟩
  all_goals cases h

/-! ### Where a dialogue is open -/

/-- Behind a line of dialogue a dialogue is open. -/
theorem outline_readRoute (h : c.readRoute l = .ok d) : d.outline ≠ none := by
  obtain ⟨_, _, _, _, _, _, -, -, -, rfl⟩ := readRoute_eq_ok_iff.mp h
  exact Option.some_ne_none _

/-- A dialogue is open exactly after a line of dialogue. -/
theorem outline_readLine (h : c.readLine l = .ok d) : d.outline ≠ none ↔ l.kind = .route := by
  by_cases hkind : l.kind = .route
  · exact iff_of_true (outline_readRoute ((readLine_route hkind).mp h)) hkind
  · obtain ⟨c₁, hclose, hcontent⟩ := (readLine_of_ne_route hkind).mp h
    have hnone := (outline_readContent hkind hcontent).trans (outline_closeOutline hclose)
    exact iff_of_false (not_not.mpr hnone) hkind

/-- A dialogue is open when the last line was one of dialogue. -/
theorem outline_readLines {ls : List ScriptLine} (h : ls.foldlM readLine {} = .ok c) :
    c.outline ≠ none ↔ (ls.map ScriptLine.kind).getLast? = some .route := by
  rcases List.eq_nil_or_concat ls with rfl | ⟨ls, l, rfl⟩
  · cases h
    simp
  · rw [List.concat_eq_append, List.foldlM_append] at h
    obtain ⟨c₁, -, hlast⟩ := bind_eq_ok_iff.mp h
    obtain ⟨_, hread, hdone⟩ := bind_eq_ok_iff.mp hlast
    cases hdone
    rw [outline_readLine hread]
    simp

/-- The open dialogue has the name that a dialogue started now would have. -/
def Rooted (c : Compilation) : Prop :=
  ∀ start o draft, c.outline = some (start, o) → c.draft = some draft → o.root = dialogueRoot draft

/-- Where no dialogue is open there is nothing to be named. -/
theorem rooted_of_outline_eq_none (h : c.outline = none) : c.Rooted := by
  intro start o draft hopen
  cases h.symm.trans hopen

/-- A line of dialogue leaves the open dialogue with its name. -/
theorem Rooted.readRoute (h : c.Rooted) (hread : c.readRoute l = .ok d) : d.Rooted := by
  obtain ⟨draft, c₁, start, o, o', store, hdraft, hopen, hadd, rfl⟩ := readRoute_eq_ok_iff.mp hread
  have hroot : o.root = dialogueRoot draft := by
    unfold dialogueFor at hopen
    split at hopen
    · next hsome =>
      cases hopen
      exact h _ _ _ hsome hdraft
    · cases hopen
      rfl
  rintro _ _ _ ⟨⟩ ⟨⟩
  exact (Outline.root_addLine hadd).trans hroot

/-- All along a script the open dialogue has the name it would be given now. -/
theorem rooted_readLines {ls : List ScriptLine} (h : ls.foldlM readLine {} = .ok c) : c.Rooted := by
  refine readLines_induction h (rooted_of_outline_eq_none rfl)
    (fun _ _ _ hclose => rooted_of_outline_eq_none (outline_closeOutline hclose))
    fun c d l hc hsort hread => ?_
  by_cases hkind : l.kind = .route
  · rw [readContent, hkind] at hread
    exact hc.readRoute hread
  · have hnone := hsort.resolve_left hkind
    exact rooted_of_outline_eq_none ((outline_readContent hkind hread).trans hnone)

/-! ### Dialogues that cannot be closed -/

/-- The open dialogue has a name that is taken. -/
def Doomed (c : Compilation) : Prop :=
  ∃ start o, c.outline = some (start, o) ∧ o.root ∈ c.routeNames

/-- A dialogue whose name is taken cannot be closed. -/
theorem Doomed.not_closeOutline (h : c.Doomed) : c.closeOutline ≠ .ok d := by
  obtain ⟨start, o, hopen, htaken⟩ := h
  intro hclose
  rcases closeOutline_eq_ok_iff.mp hclose with
    ⟨hnone, -⟩ | ⟨_, o', _, nodes, hopen', -, hnodes, hnew, -⟩
  · cases hnone.symm.trans hopen
  · cases hopen.symm.trans hopen'
    obtain ⟨-, -, rfl⟩ := Outline.nodes_eq_ok_iff.mp hnodes
    exact hnew.1 htaken

/-- More lines of dialogue do not help. -/
theorem Doomed.readLine (h : c.Doomed) (hread : c.readLine l = .ok d) : d.Doomed := by
  by_cases hkind : l.kind = .route
  · obtain ⟨draft, c₁, start, o, o', store, -, hopen, hadd, rfl⟩ :=
      readRoute_eq_ok_iff.mp ((readLine_route hkind).mp hread)
    obtain ⟨start₁, o₁, hsome, htaken⟩ := h
    rw [dialogueFor, hsome] at hopen
    cases hopen
    exact ⟨start, o', rfl, Outline.root_addLine hadd ▸ htaken⟩
  · obtain ⟨c₁, hclose, -⟩ := (readLine_of_ne_route hkind).mp hread
    exact absurd hclose h.not_closeOutline

/-- Lines that can be read leave a dialogue whose name is taken open. -/
theorem Doomed.readLines (h : c.Doomed) {ls : List ScriptLine}
    (hread : ls.foldlM Compilation.readLine c = .ok d) : d.Doomed :=
  foldlM_ok_induction hread h fun _ _ _ _ hc hl => hc.readLine hl

/-- A script does not end well with a dialogue whose name is taken. -/
theorem Doomed.not_finish (h : c.Doomed) {script : CompiledScript} : c.finish ≠ .ok script := by
  intro hfinish
  obtain ⟨_, _, hclose, -⟩ := finish_eq_ok_iff.mp hfinish
  exact h.not_closeOutline hclose

/-- Once the open dialogue is closed, a new one under the same rule is doomed. -/
theorem Rooted.doomed (h : c.Rooted) (hopen : c.outline ≠ none) {c₁ : Compilation}
    (hclose : c.closeOutline = .ok c₁) {parts : List (Nat × Part)}
    (hread : { c₁ with parts }.readRoute l = .ok d) : d.Doomed := by
  rcases closeOutline_eq_ok_iff.mp hclose with
    ⟨hnone, -⟩ | ⟨start, o, draft, nodes, ho, hdraft, hnodes, -, rfl⟩
  · exact absurd hnone hopen
  -- The closed dialogue has taken the name of the root, and the new one has the same root.
  have hroot := h start o draft ho hdraft
  obtain ⟨draft', c₂, start', o₁, o', store, hdraft', hstart, hadd, rfl⟩ :=
    readRoute_eq_ok_iff.mp hread
  cases hdraft'
  cases hstart
  refine ⟨_, o', rfl, ?_⟩
  rw [Outline.root_addLine hadd]
  obtain ⟨-, -, rfl⟩ := Outline.nodes_eq_ok_iff.mp hnodes
  refine List.mem_append_right _ ?_
  exact List.mem_cons.mpr (.inl hroot.symm)

/-! ### Lines put in -/

/-- Where no dialogue goes on, the open one may as well be closed. -/
theorem exists_closed {ls : List ScriptLine}
    (h : c.outline = none ∨ (ls.map ScriptLine.kind).head? ≠ some .route)
    (hread : ls.foldlM readLine c = .ok d) {script : CompiledScript}
    (hfinish : d.finish = .ok script) :
    ∃ c₁ d₁, c.closeOutline = .ok c₁ ∧ ls.foldlM readLine c₁ = .ok d₁ ∧
      d₁.finish = .ok script := by
  rcases h with hnone | hkind
  · exact ⟨c, d, closeOutline_of_outline_eq_none hnone, hread, hfinish⟩
  cases ls with
  | nil =>
    cases hread
    obtain ⟨c₁, c₂, hclose, hseal, hscript⟩ := finish_eq_ok_iff.mp hfinish
    have hclosed := closeOutline_of_outline_eq_none (outline_closeOutline hclose)
    exact ⟨c₁, c₁, hclose, rfl, finish_eq_ok_iff.mpr ⟨c₁, c₂, hclosed, hseal, hscript⟩⟩
  | cons l ls =>
    have hne : l.kind ≠ .route := by simpa using hkind
    rw [List.foldlM_cons] at hread
    obtain ⟨c₂, hfirst, hrest⟩ := bind_eq_ok_iff.mp hread
    obtain ⟨c₁, hclose, hcontent⟩ := (readLine_of_ne_route hne).mp hfirst
    have hclosed := closeOutline_of_outline_eq_none (outline_closeOutline hclose)
    have hfirst' := (readLine_of_ne_route hne).mpr ⟨c₁, hclosed, hcontent⟩
    refine ⟨c₁, d, hclose, ?_, hfinish⟩
    rw [List.foldlM_cons]
    exact bind_eq_ok_iff.mpr ⟨c₂, hfirst', hrest⟩

/-- An inert line closes the open dialogue and leaves a part at most. -/
theorem readLine_of_isInert (h : l.kind.isInert = true) {c₁ : Compilation}
    (hclose : c.closeOutline = .ok c₁) : ∃ parts, c.readLine l = .ok { c₁ with parts } := by
  have hne : l.kind ≠ .route := by
    intro hkind
    rw [hkind] at h
    cases h
  obtain ⟨parts, hread⟩ := exists_readContent_of_isInert (c := c₁) h
  exact ⟨parts, (readLine_of_ne_route hne).mpr ⟨c₁, hclose, hread⟩⟩

/-- With other parts a compilation goes on as before. -/
theorem beside_with_parts (hnone : c.outline = none) (parts : List (Nat × Part))
    (move : Nat → Nat) : Beside { parts } c.parts move c { c with parts } where
  tapes := rfl
  labels := rfl
  routeNames := rfl
  parts := ⟨[], (List.append_nil _).symm, (List.append_nil _).symm⟩
  index value := by simp [TagIndex.empty]
  draft := rfl
  outline := by rw [hnone, Option.map_none]

/-- An inert line read where no dialogue goes on leaves the tapes as they are. -/
theorem exists_finish_inserted {ls : List ScriptLine} (hinert : l.kind.isInert = true)
    (h : c.outline = none ∨ (ls.map ScriptLine.kind).head? ≠ some .route)
    (hread : ls.foldlM readLine c = .ok d) {script : CompiledScript}
    (hfinish : d.finish = .ok script) (move : Nat → Nat) :
    ∃ d' script', (l :: ls.map (·.renumber move)).foldlM readLine c = .ok d' ∧
      d'.finish = .ok script' ∧ script'.tapes = script.tapes := by
  obtain ⟨c₁, d₁, hclose, hread₁, hfinish₁⟩ := exists_closed h hread hfinish
  obtain ⟨parts, hinserted⟩ := readLine_of_isInert hinert hclose
  have hapart (e : Compilation) : Apart { parts } e := ⟨fun _ _ => nofun, fun _ _ => nofun⟩
  have hbeside := beside_with_parts (outline_closeOutline hclose) parts move
  obtain ⟨d', hd', hend⟩ := hbeside.readLines hread₁ (hapart d₁)
  obtain ⟨script', hscript', htapes, -⟩ := hend.finish hfinish₁ fun e _ => hapart e
  refine ⟨d', script', ?_, hscript', htapes⟩
  rw [List.foldlM_cons]
  exact bind_eq_ok_iff.mpr ⟨_, hinserted, hd'⟩

/-- An inert line read in the middle of a dialogue ends the compilation. -/
theorem not_finish_inserted {ls : List ScriptLine} (hinert : l.kind.isInert = true)
    (hrooted : c.Rooted) (hopen : c.outline ≠ none)
    (hkind : (ls.map ScriptLine.kind).head? = some .route) {script : CompiledScript}
    (hread : (l :: ls).foldlM readLine c = .ok d) : d.finish ≠ .ok script := by
  rw [List.foldlM_cons] at hread
  obtain ⟨c₂, hfirst, hrest⟩ := bind_eq_ok_iff.mp hread
  have hne : l.kind ≠ .route := by
    intro hroute
    rw [hroute] at hinert
    cases hinert
  obtain ⟨c₁, hclose, hcontent⟩ := (readLine_of_ne_route hne).mp hfirst
  obtain ⟨parts, hparts⟩ := exists_readContent_of_isInert (c := c₁) hinert
  cases hparts.symm.trans hcontent
  cases ls with
  | nil => cases hkind
  | cons next ls =>
    have hroute : next.kind = .route := by simpa using hkind
    rw [List.foldlM_cons] at hrest
    obtain ⟨c₃, hnext, hrest⟩ := bind_eq_ok_iff.mp hrest
    have hdoomed := hrooted.doomed hopen hclose ((readLine_route hroute).mp hnext)
    exact (hdoomed.readLines hrest).not_finish

end Compilation

/-- A place between two lines of dialogue, with nothing declared in between. -/
def CutsDialogue (before after : List (List Char)) : Prop :=
  (declaredKinds before).getLast? = some .route ∧ (declaredKinds after).head? = some .route

/-- The lines of a script with one more line put in. -/
def insertLine (before : List (List Char)) (line : List Char) (after : List (List Char)) : String :=
  String.ofList (join ['\n'] (before ++ line :: after))

/-- Put in before a declaration or at the end, a line without effect leaves the tapes as they are,
except in the middle of a dialogue, where the script no longer compiles. -/
theorem compile_insertLine {source : String} {script : CompiledScript}
    (hcompile : compile source = .ok script) {before after : List (List Char)}
    (hsource : splitChar '\n' source.toList = before ++ after) (hnew : OpensAnew after)
    {line : List Char} (hline : '\n' ∉ line) {kind : LineKind}
    (hkind : LineKind.classify (trimEnd line) = some kind) (hinert : kind.isInert = true) :
    (¬ CutsDialogue before after → ∃ script',
      compile (insertLine before line after) = .ok script' ∧ script'.tapes = script.tapes) ∧
    (CutsDialogue before after → ∃ e, compile (insertLine before line after) = .error e) := by
  obtain ⟨ls, d, hls, hread, hfinish⟩ := compile_eq_ok_iff.mp hcompile
  obtain ⟨bls, als, rfl, hbls, hals, hinserted⟩ := splitScript_insert hsource hline hkind hnew hls
  rw [List.foldlM_append] at hread
  obtain ⟨c, hc, hrest⟩ := bind_eq_ok_iff.mp hread
  have hopen := Compilation.outline_readLines hc
  rw [hbls] at hopen
  rw [CutsDialogue, ← hopen, ← hals]
  constructor
  · intro hplace
    have h : c.outline = none ∨ (als.map ScriptLine.kind).head? ≠ some .route := by
      rw [not_and_or, not_not] at hplace
      exact hplace
    obtain ⟨d', script', hd', hscript', htapes⟩ := Compilation.exists_finish_inserted
      (l := .ofLine (before.length + 1) kind (trimEnd line)) hinert h hrest hfinish (· + 1)
    refine ⟨script', compile_eq_ok_iff.mpr ⟨_, d', hinserted, ?_, hscript'⟩, htapes⟩
    rw [List.foldlM_append]
    exact bind_eq_ok_iff.mpr ⟨c, hc, hd'⟩
  · rintro ⟨hdialogue, hnext⟩
    cases hedited : compile (insertLine before line after) with
    | error e => exact ⟨e, rfl⟩
    | ok script' =>
      obtain ⟨ls', d', hls', hread', hfinish'⟩ := compile_eq_ok_iff.mp hedited
      cases hinserted.symm.trans hls'
      rw [List.foldlM_append] at hread'
      obtain ⟨c', hc', hrest'⟩ := bind_eq_ok_iff.mp hread'
      cases hc.symm.trans hc'
      have hmoved : ((als.map (·.renumber (· + 1))).map ScriptLine.kind).head? = some .route := by
        rw [List.map_map]
        exact hnext
      exact absurd hfinish' (Compilation.not_finish_inserted hinert
        (Compilation.rooted_readLines hc) hdialogue hmoved hrest')

/-! ### A talk to cut -/

namespace Talk

/-- A tape with a text that leads to the dialogue. -/
def opening : List (List Char) :=
  ["== A [HOME, hero]".toList, "++ ()-[?hero]->() #TALK Hi".toList]

def yes : List Char := "-- [Yes] please.".toList

def no : List Char := "-- [No] thanks.".toList

/-- Two choices of one dialogue. -/
def script : String :=
  "== A [HOME, hero]\n++ ()-[?hero]->() #TALK Hi\n-- [Yes] please.\n-- [No] thanks."

def note : List Char := "// note".toList

end Talk

/-- A comment may stand before the talk. -/
theorem note_before_talk :
    ∃ script, compile Talk.script = .ok script ∧
      splitChar '\n' Talk.script.toList = Talk.opening ++ [Talk.yes, Talk.no] ∧
      OpensAnew [Talk.yes, Talk.no] ∧ '\n' ∉ Talk.note ∧
      LineKind.classify (trimEnd Talk.note) = some .comment ∧
      ¬ CutsDialogue Talk.opening [Talk.yes, Talk.no] ∧
      ∃ script', compile (insertLine Talk.opening Talk.note [Talk.yes, Talk.no]) = .ok script' ∧
        script'.tapes = script.tapes := by
  have hok : (compile Talk.script).isOk = true := by decide +kernel
  have hsource : splitChar '\n' Talk.script.toList = Talk.opening ++ [Talk.yes, Talk.no] := by
    decide +kernel
  have hnew : OpensAnew [Talk.yes, Talk.no] := by
    rintro _ ⟨⟩
    decide
  have hline : '\n' ∉ Talk.note := by decide
  have hkind : LineKind.classify (trimEnd Talk.note) = some .comment := by decide +kernel
  have hplace : ¬ CutsDialogue Talk.opening [Talk.yes, Talk.no] := by
    rintro ⟨hlast, -⟩
    revert hlast
    decide +kernel
  cases hcompile : compile Talk.script with
  | error e =>
    rw [hcompile] at hok
    cases hok
  | ok script =>
    have hinserted := compile_insertLine hcompile hsource hnew hline hkind rfl
    exact ⟨script, rfl, hsource, hnew, hline, hkind, hplace, hinserted.1 hplace⟩

/-- Between its two choices it cuts the talk in two of one name. -/
theorem note_cuts_talk :
    (compile Talk.script).isOk = true ∧
      splitChar '\n' Talk.script.toList = (Talk.opening ++ [Talk.yes]) ++ [Talk.no] ∧
      LineKind.classify Talk.no = some .route ∧
      LineKind.classify Talk.note = some .comment ∧
      (match compile (insertLine (Talk.opening ++ [Talk.yes]) Talk.note [Talk.no]) with
        | .ok _ => none
        | .error e => some e.message) = some "line 5: route 'TALK' already exists" := by
  decide +kernel

end StoryTape.Script
