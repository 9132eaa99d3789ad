import StoryTape.Proofs.GivenKeys
import StoryTape.Proofs.ShownDialogue

/-!
# Lines that another name captures

The key of a later line is its name, an underscore and a number. This may be the name of another
text: then the key is looked up as that name, whose first line is found in place of the line it is
the key of. Nothing else can go wrong. Every name that a compiled tape has lines under is the name
of a text, so nothing is dropped from its end and it is no signal.
-/

namespace StoryTape.Script

open Text

/-- Every name that has lines is the name of a text. -/
def LineStore.Named (s : LineStore) : Prop := ∀ name, s.linesOf name ≠ [] → IsTextName name

/-- Storing under names of texts leaves lines under such names only. -/
theorem LineStore.Named.growsNamed {s s' : LineStore} (h : s.Named) (hgrows : s.GrowsNamed s') :
    s'.Named := by
  induction hgrows with
  | refl => exact h
  | @under _ _ name _ hname hunder ih =>
    intro name' hlines
    by_cases hsame : name = name'
    · exact hsame ▸ hname
    · rw [hunder.linesOf_eq hsame] at hlines
      exact ih name' hlines

namespace Compilation

variable {c c' : Compilation} {l : ScriptLine} {lines : List ScriptLine}

/-- The lines of all tapes are stored under names of texts. -/
structure Spelled (c : Compilation) : Prop where
  draft : ∀ d ∈ c.draft, d.store.Named
  tapes : ∀ t ∈ c.tapes, ∀ name, t.text.linesOf name ≠ [] → IsTextName name

/-- Closing a dialogue stores no line. -/
theorem Spelled.closeOutline (h : c.Spelled) (hclose : c.closeOutline = .ok c') : c'.Spelled := by
  rcases closeOutline_eq_ok_iff.mp hclose with ⟨-, rfl⟩ | ⟨start, o, d, nodes, -, hd, -, -, rfl⟩
  · exact h
  · refine ⟨?_, h.tapes⟩
    rintro _ ⟨⟩
    exact h.draft d hd

/-- Sealing a tape leaves its lines under the names they have. -/
theorem Spelled.sealDraft (h : c.Spelled) (hseal : c.sealDraft = .ok c') : c'.Spelled := by
  rcases sealDraft_eq_ok_iff.mp hseal with ⟨-, rfl⟩ | ⟨d, t, hd, ht, rfl⟩
  · exact h
  · refine ⟨nofun, fun t' ht' => ?_⟩
    rcases List.mem_append.mp ht' with ht' | ht'
    · exact h.tapes t' ht'
    · obtain ⟨w, w', -, -, rfl⟩ := Draft.seal_eq_ok ht
      rw [List.mem_singleton.mp ht']
      exact h.draft d hd

/-- Whatever a line declares, lines are stored under names of texts. -/
theorem Spelled.readContent (h : c.Spelled) (htraced : c.Traced lines)
    (hread : c.readContent l = .ok c') : c'.Spelled := by
  rw [Compilation.readContent] at hread
  cases hkind : l.kind <;> simp only [hkind] at hread
  case state =>
    obtain ⟨c₁, line, hseal, -, -, rfl⟩ := readState_eq_ok_iff.mp hread
    refine ⟨?_, (h.sealDraft hseal).tapes⟩
    rintro _ ⟨⟩
    exact fun name hlines => absurd rfl hlines
  case rule =>
    obtain ⟨d, line, store, hd, hline, hstore, rfl⟩ := readRule_eq_ok_iff.mp hread
    refine ⟨?_, h.tapes⟩
    rintro _ ⟨⟩
    exact (h.draft d hd).growsNamed (growsNamed_storeRuleText hline hstore)
  case route =>
    obtain ⟨d, c₁, start, o, o', store, hd, hopen, hadd, rfl⟩ := readRoute_eq_ok_iff.mp hread
    refine ⟨?_, tapes_dialogueFor hopen ▸ h.tapes⟩
    rintro _ ⟨⟩
    exact (h.draft d hd).growsNamed (growsNamed_addLine (htraced.isTextName_root hd hopen) hadd)
  case text =>
    obtain ⟨d, line, store, keys, hd, hline, hstore, rfl⟩ := readText_eq_ok_iff.mp hread
    refine ⟨?_, h.tapes⟩
    rintro _ ⟨⟩
    exact (h.draft d hd).growsNamed (growsNamed_storeTextLine hline hstore)
  all_goals
    cases hread
    exact ⟨h.draft, h.tapes⟩

/-- No line stores under anything but names of texts. -/
theorem Spelled.readLine (h : c.Spelled) (htraced : c.Traced lines)
    (hread : c.readLine l = .ok c') : c'.Spelled := by
  rcases readLine_cases hread with ⟨-, hcontent⟩ | ⟨-, c₁, hclose, hcontent⟩
  · exact h.readContent htraced hcontent
  · exact (h.closeOutline hclose).readContent (htraced.closeOutline hclose) hcontent

end Compilation

/-- Every name that a compiled tape has lines under is the name of a text. -/
theorem isTextName_of_compile {source : String} {script : CompiledScript}
    (h : compile source = .ok script) {t : Tape} (ht : t ∈ script.tapes) {name : String}
    (hlines : t.text.linesOf name ≠ []) : IsTextName name := by
  obtain ⟨lines, c, -, hread, hfinish⟩ := compile_eq_ok_iff.mp h
  obtain ⟨c₁, c₂, hclose, hseal, rfl⟩ := Compilation.finish_eq_ok_iff.mp hfinish
  have hstart : ({} : Compilation).Traced lines ∧ ({} : Compilation).Spelled :=
    ⟨⟨nofun, nofun, nofun⟩, nofun, nofun⟩
  obtain ⟨-, hspelled⟩ := foldlM_ok_induction (P := fun c => c.Traced lines ∧ c.Spelled) hread hstart
    fun _ hl _ _ hc hstep => ⟨hc.1.readLine hl hstep, hc.2.readLine hc.1 hstep⟩
  exact ((hspelled.closeOutline hclose).sealDraft hseal).tapes t ht name hlines

/-- The name of a text is no signal. -/
theorem IsTextName.isSignal_eq_false {name : String} (h : IsTextName name) :
    isSignal name = false := by
  rw [isSignal, Bool.and_eq_false_iff]
  left
  by_contra hopens
  obtain ⟨rest, hrest⟩ := List.isPrefixOf_iff_prefix.mp (eq_true_of_ne_false hopens)
  have hmark := h '<' (hrest ▸ List.mem_cons_self)
  exact absurd hmark (by decide +kernel)

end StoryTape.Script

namespace StoryTape

/-! ### Looking up the key of a line -/

open Text Script

namespace TextBook

variable {b : TextBook} {name line first : String} {index : Nat}

/-- A later line of a name is captured: its key is a name too, which has the given first line. -/
def Captures (b : TextBook) (name : String) (index : Nat) (first : String) : Prop :=
  index ≠ 0 ∧ (b.linesOf (lineKey name index)).head? = some first

/-- A captured line is not found under its key, but the first line of the other name is. -/
theorem line_of_captures (h : b.Captures name index first) :
    b.line (lineKey name index) = .ok first := by
  obtain ⟨hindex, hfirst⟩ := h
  simp only [TextBook.line, bareKey_lineKey hindex, isSignal_lineKey hindex, hfirst,
    Bool.false_eq_true, if_false]

/-- The first line of the name of a text is found under the name. -/
theorem line_of_isTextName (hname : IsTextName name) (hline : (b.linesOf name)[0]? = some line) :
    b.line name = .ok line := by
  have hbare : bareKey name = name := isBare_of_isTextName hname
  have hsignal : isSignal name = false := hname.isSignal_eq_false
  rw [← List.head?_eq_getElem?] at hline
  simp only [TextBook.line, hbare, hsignal, hline, Bool.false_eq_true, if_false]

/-- A later line that is not captured is found under its key. -/
theorem line_of_not_captures (hindex : index ≠ 0) (hword : index < wordSize)
    (hfree : ∀ first, ¬ b.Captures name index first) (hline : (b.linesOf name)[index]? = some line) :
    b.line (lineKey name index) = .ok line := by
  have hnone : (b.linesOf (lineKey name index)).head? = none := by
    refine Option.eq_none_iff_forall_ne_some.mpr fun first hfirst => ?_
    exact hfree first ⟨hindex, hfirst⟩
  simp only [TextBook.line, bareKey_lineKey hindex, isSignal_lineKey hindex, hnone,
    indexedLine_lineKey hindex hword hline, Bool.false_eq_true, if_false]

end TextBook

/-- **Line keys find their lines unless another name captures them.** In a compiled tape the key of
a line that is captured leads to the first line of the name that captures it. So the key of a line
leads to that line exactly when no name captures it, or the one that does begins with the same
line; that of the first line always does. -/
theorem compiled_lines_captured {t : Tape} (ht : CompiledInMemory t) {name line : String}
    {index : Nat} (hline : (t.text.linesOf name)[index]? = some line) :
    (∀ first, t.text.Captures name index first →
        t.text.line (lineKey name index) = .ok first) ∧
      (t.text.line (lineKey name index) = .ok line ↔
        ∀ first, t.text.Captures name index first → first = line) := by
  refine ⟨fun first => TextBook.line_of_captures, fun h first hcaptures => ?_, fun h => ?_⟩
  · rw [TextBook.line_of_captures hcaptures] at h
    exact Except.ok.inj h
  · have hlength : index < t.text.lineCount name := (List.getElem?_eq_some_iff.mp hline).1
    have hword := Nat.lt_trans hlength (ht.lineCount_lt name)
    -- The key of the first line is the bare name, which nothing can capture.
    rcases Nat.eq_zero_or_pos index with rfl | hpos
    · obtain ⟨source, script, -, hcompile, ht⟩ := ht
      have hlines : t.text.linesOf name ≠ [] := List.ne_nil_of_length_pos hlength
      exact TextBook.line_of_isTextName (isTextName_of_compile hcompile ht hlines) hline
    · by_cases hfree : ∃ first, t.text.Captures name index first
      · obtain ⟨first, hcaptures⟩ := hfree
        rw [← h first hcaptures]
        exact TextBook.line_of_captures hcaptures
      · exact TextBook.line_of_not_captures (Nat.ne_of_gt hpos) hword
          (fun first hcaptures => hfree ⟨first, hcaptures⟩) hline

namespace Supper

def cook : Tag := ⟨"cook", ⟨.plain, "cook", none, .unset⟩, by decide, by rfl⟩
def requiredCook : Tag := ⟨"?cook", ⟨.required, "cook", none, .unset⟩, by decide, by rfl⟩

/-- The menu has two lines, and another text is called like a third. -/
def source : String :=
  "== SUPPER [HALL, cook]\n++ ()-[?cook]->() #MENU Soup.</>Fish.\n## MENU_2 Cake."

/-- Another text is called like the second line of the menu. -/
def crowded : String :=
  "== SUPPER [HALL, cook]\n++ ()-[?cook]->() #MENU Soup.</>Fish.\n## MENU_1 Cake."

/-- The texts of the menu, with the name of the other text left open. -/
def book (sweet : String) : TextBook :=
  { lines := .ofList [("MENU", ["Soup.", "Fish."]), (sweet, ["Cake."])]
    ranges := .ofList [("MENU", [⟨0, 2⟩])] }

/-- The tape of the menu, with the name of the other text left open. -/
def tape (sweet : String) : Tape :=
  { label := "SUPPER", world := ⟨[⟨"HALL", .singleton cook⟩]⟩,
    rules := [{ target := requiredCook, text := some "MENU" }], text := book sweet }

/-- The name of the other text is that of no later line. -/
theorem tapes_of_source :
    (compile source).toOption.map CompiledScript.tapes = some [tape "MENU_2"] := by decide +kernel

/-- The name of the other text is the key of the second line. -/
theorem tapes_of_crowded :
    (compile crowded).toOption.map CompiledScript.tapes = some [tape "MENU_1"] := by decide +kernel

end Supper

/-- No name captures the fish, which is found under its key. -/
theorem supper_line_found :
    CompiledInMemory (Supper.tape "MENU_2") ∧
      ((Supper.tape "MENU_2").text.linesOf "MENU")[1]? = some "Fish." ∧
      (Supper.tape "MENU_2").text.line (lineKey "MENU" 1) = .ok "Fish." := by
  obtain ⟨script, hcompile, htapes⟩ := exists_script_of_tapes Supper.tapes_of_source
  have hmemory : CompiledInMemory (Supper.tape "MENU_2") :=
    ⟨_, script, by decide, hcompile, htapes ▸ List.mem_cons_self⟩
  have hline : ((Supper.tape "MENU_2").text.linesOf "MENU")[1]? = some "Fish." := by rfl
  have hfree : ((Supper.tape "MENU_2").text.linesOf (lineKey "MENU" 1)).head? = none := by rfl
  refine ⟨hmemory, hline, (compiled_lines_captured hmemory hline).2.mpr fun first hcaptures => ?_⟩
  cases hfree.symm.trans hcaptures.2

/-- The cake captures the fish: the menu reads as two lines, and the second shows the cake. -/
theorem crowded_line_lost :
    (∃ script, compile Supper.crowded = .ok script ∧ script.tapes = [Supper.tape "MENU_1"]) ∧
      ((Supper.tape "MENU_1").text.linesOf "MENU")[1]? = some "Fish." ∧
      (Supper.tape "MENU_1").text.readName (Supper.tape "MENU_1").world "MENU" =
        .ok { keys := ["MENU", lineKey "MENU" 1] } ∧
      (Supper.tape "MENU_1").text.line (lineKey "MENU" 1) = .ok "Cake." :=
  ⟨exists_script_of_tapes Supper.tapes_of_crowded, by rfl, by rfl, by rfl⟩

end StoryTape
