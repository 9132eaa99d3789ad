import StoryTape.Script.Compile
import StoryTape.Proofs.NetEffect
import StoryTape.Proofs.StoredLines

/-!
# Where compiled tapes come from

A script is compiled line by line, and a line can do four things to the open tape: open it with the
world of a state line, add the rule of a rule line, store texts, and add a dialogue node. Every tape
of a compiled script is a sealed tape that was drafted in this way, whatever lines the script has
and in whatever order, and what is stored on the way is bounded by the length of the script. What
all four steps keep therefore holds of every compiled tape.
-/

namespace StoryTape.Script

open Text

/-- The tapes under way that lines of a script lead to, with at most so many characters of text
stored. -/
inductive Drafted : Nat → Draft → Prop
  /-- A state line opens a tape. -/
  | opened (n : Nat) {source : String} {line : StateLine} (h : parseStateLine source = .ok line) :
      Drafted n { label := line.label, world := line.world }
  /-- A rule line adds its rule. -/
  | rule {n : Nat} {d : Draft} (hd : Drafted n d) {source : String} {line : RuleLine}
      (h : parseRuleLine source = .ok line) : Drafted n { d with rules := d.rules ++ [line.rule] }
  /-- Texts are stored. -/
  | stored {n m : Nat} {d : Draft} (hd : Drafted n d) {store : LineStore}
      (h : d.store.Grows m store) : Drafted (n + m) { d with store }
  /-- A dialogue adds a node. -/
  | node {n : Nat} {d : Draft} (hd : Drafted n d) (name : String) (node : DialogueNode) :
      Drafted n { d with routes := d.routes.insert name node }

/-- What was drafted within some characters was drafted within more. -/
theorem Drafted.mono {n m : Nat} {d : Draft} (h : Drafted n d) (hle : n ≤ m) : Drafted m d := by
  induction h generalizing m with
  | opened _ h => exact .opened m h
  | rule _ h ih => exact (ih hle).rule h
  | @stored n k d _ store h ih =>
    have hn : Drafted (m - k) d := ih (by omega)
    exact Nat.sub_add_cancel (Nat.le_trans (Nat.le_add_left k n) hle) ▸ hn.stored h
  | node _ name node ih => exact (ih hle).node name node

namespace Outline

/-- A choice is stored twice, as its label and as its text. -/
theorem grows_storeChoice (name : String) (text : List Char) (store : LineStore) :
    store.Grows (2 * text.length) (storeChoice name text store).1 := by
  rw [storeChoice]
  split
  · exact .refl _
  · next label full hchoice =>
    obtain ⟨hlabel, hfull⟩ := length_splitChoice hchoice
    split
    · exact .refl _
    · have hgrows := store.grows_add (name ++ "S") label
      split
      · next store' e hstored =>
        rw [hstored] at hgrows
        exact hgrows.mono (by omega)
      · next store' keys hstored =>
        rw [hstored] at hgrows
        exact (hgrows.trans (store'.grows_add name full)).mono (by omega)

/-- Storing an answer takes no more characters than the answer has. -/
theorem grows_storeAnswer (name : String) (text : List Char) (store : LineStore) :
    store.Grows text.length (storeAnswer name text store).1 := by
  rw [storeAnswer]
  split
  · refine (store.grows_addSequence name _ .loop).mono ?_
    exact Nat.le_trans (totalLength_map_le length_trim_le _) (totalLength_splitChar_le '|' text)
  · exact store.grows_add name text

/-- What a line of dialogue stores is at most twice its content, as a full text may repeat the
label. -/
theorem grows_readContent (cursor : Cursor) (depth : Nat) (deadEnd : Bool) (content : List Char)
    (store : LineStore) :
    store.Grows (2 * content.length) (readContent cursor depth deadEnd content store).1 := by
  simp only [readContent]
  split
  · exact .refl _
  · split
    · have hrest := (takeGroups_suffix content).length_le
      exact (grows_storeChoice _ _ store).mono (Nat.mul_le_mul_left 2 hrest)
    · exact (grows_storeAnswer _ content store).mono (by omega)

/-- A line of dialogue stores texts and nothing else, also when it fails. -/
theorem grows_addLine (o : Outline) (line : List Char) (store : LineStore) :
    store.Grows (2 * line.length) (o.addLine line store).2.1 := by
  simp only [addLine]
  split
  · exact .refl _
  · next depth deadEnd content hline =>
    have hlength := Nat.le_trans (length_splitHyphens hline) (length_trim_le line)
    split
    · exact .refl _
    · next cursor _ _ =>
      have hcontent := (grows_readContent cursor depth deadEnd content store).mono
        (Nat.mul_le_mul_left 2 hlength)
      split
      · next store' e hread =>
        rw [hread] at hcontent
        exact hcontent
      · next store' l hread =>
        rw [hread] at hcontent
        exact hcontent

end Outline

namespace Compilation

/-- Storing a sequence takes no more characters than its sentences have. -/
theorem grows_storeSentences {store store' : LineStore} {name : String} {sentences : List String}
    (h : storeSentences store name sentences = .ok store') :
    store.Grows (sentencesLength sentences) store' := by
  induction sentences generalizing store with
  | nil =>
    cases h
    exact .refl 0
  | cons sentence sentences ih =>
    have hadd := store.grows_add name sentence.toList
    rw [storeSentences] at h
    split at h
    · next next _ hstored =>
      rw [hstored] at hadd
      exact hadd.trans (ih h)
    · cases h

/-- The open tape and the sealed ones were drafted line by line, each with at most so many
characters of text stored. -/
structure Orderly (n : Nat) (c : Compilation) : Prop where
  /-- The open tape was. -/
  draft : ∀ d, c.draft = some d → Drafted n d
  /-- Every sealed tape was. -/
  tapes : ∀ t ∈ c.tapes, ∃ d, Drafted n d ∧ d.seal = .ok t

variable {c c' : Compilation} {n : Nat}

/-- What is orderly within some characters is so within more. -/
theorem Orderly.mono (hc : c.Orderly n) {m : Nat} (hle : n ≤ m) : c.Orderly m where
  draft d hd := (hc.draft d hd).mono hle
  tapes t ht := by
    obtain ⟨d, hd, hseal⟩ := hc.tapes t ht
    exact ⟨d, hd.mono hle, hseal⟩

/-- A tape that can be added to is the open one. -/
theorem draftFor_eq_ok {what : String} {d : Draft} (h : c.draftFor what = .ok d) :
    c.draft = some d := by
  rw [draftFor] at h
  split at h
  · next hdraft => exact hdraft.trans (congrArg some (Except.ok.inj h))
  · cases h

/-- The open tape is replaced by one that was drafted too. -/
theorem Orderly.replace (hc : c.Orderly n) {d : Draft} (hd : Drafted n d)
    (htapes : c'.tapes = c.tapes) (hdraft : c'.draft = some d) : c'.Orderly n where
  draft d' h := by
    rw [hdraft] at h
    exact Option.some.inj h ▸ hd
  tapes := htapes ▸ hc.tapes

/-- Adding a node stores no text. -/
theorem Orderly.addNode (hc : c.Orderly n) {node : String × DialogueNode}
    (h : c.addNode node = .ok c') : c'.Orderly n := by
  obtain ⟨d, hd, h⟩ := bind_eq_ok_iff.mp h
  have hdrafted := hc.draft d (draftFor_eq_ok hd)
  split at h
  · cases h
  · cases h
    exact hc.replace (hdrafted.node node.1 node.2) rfl rfl

/-- Adding the nodes of a dialogue stores no text. -/
theorem Orderly.addOutline (hc : c.Orderly n) {o : Outline} (h : c.addOutline o = .ok c') :
    c'.Orderly n := by
  obtain ⟨_, -, h⟩ := bind_eq_ok_iff.mp h
  split at h
  · cases h
  · obtain ⟨nodes, -, hfold⟩ := bind_eq_ok_iff.mp h
    exact foldlM_ok_induction hfold hc fun _ _ _ _ hb hstep => hb.addNode hstep

/-- Closing a dialogue stores no text. -/
theorem Orderly.closeOutline (hc : c.Orderly n) (h : c.closeOutline = .ok c') : c'.Orderly n := by
  rw [Compilation.closeOutline] at h
  split at h
  · cases h
    exact hc
  · next start o _ =>
    have hclosed : { c with outline := none }.Orderly n := ⟨hc.draft, hc.tapes⟩
    exact hclosed.addOutline (mapError_eq_ok_iff.mp h)

/-- Sealing moves the open tape to the sealed ones. -/
theorem Orderly.sealDraft (hc : c.Orderly n) (h : c.sealDraft = .ok c') : c'.Orderly n := by
  rw [Compilation.sealDraft] at h
  split at h
  · cases h
    exact hc
  · next d hd =>
    obtain ⟨tape, hseal, h⟩ := bind_eq_ok_iff.mp h
    cases h
    refine ⟨nofun, fun t ht => ?_⟩
    rcases List.mem_append.mp ht with ht | ht
    · exact hc.tapes t ht
    · exact ⟨d, hc.draft d hd, List.mem_singleton.mp ht ▸ hseal⟩

section Lines

variable {l : ScriptLine}

/-- A state line starts a tape with nothing stored. -/
theorem Orderly.readState (hc : c.Orderly n) (h : c.readState l = .ok c') : c'.Orderly n := by
  obtain ⟨c₁, hseal, h⟩ := bind_eq_ok_iff.mp h
  obtain ⟨line, hline, h⟩ := bind_eq_ok_iff.mp h
  dsimp only at h
  split at h
  · cases h
  · cases h
    exact (hc.sealDraft hseal).replace (.opened n hline) rfl rfl

/-- A rule line stores no more characters than its content has. -/
theorem Orderly.readRule (hc : c.Orderly n) (h : c.readRule l = .ok c') :
    c'.Orderly (n + l.content.length) := by
  obtain ⟨d, hd, h⟩ := bind_eq_ok_iff.mp h
  obtain ⟨line, hline, h⟩ := bind_eq_ok_iff.mp h
  have hdrafted := hc.draft d (draftFor_eq_ok hd)
  dsimp only at h
  split at h
  · cases h
    have hle := Nat.le_add_right n l.content.length
    exact (hc.mono hle).replace ((hdrafted.mono hle).rule hline) rfl rfl
  · next text htext =>
    obtain ⟨store, hstore, h⟩ := bind_eq_ok_iff.mp h
    have hlength := sentencesLength_parseRuleLine hline htext
    rw [String.length_ofList] at hlength
    have hgrows := (grows_storeSentences hstore).mono hlength
    cases h
    exact (hc.mono (Nat.le_add_right n _)).replace ((hdrafted.stored hgrows).rule hline) rfl rfl

/-- A line of dialogue stores at most twice as many characters as its content has. -/
theorem Orderly.readRoute (hc : c.Orderly n) (h : c.readRoute l = .ok c') :
    c'.Orderly (n + 2 * l.content.length) := by
  obtain ⟨d, hd, h⟩ := bind_eq_ok_iff.mp h
  have hdrafted := hc.draft d (draftFor_eq_ok hd)
  split at h
  next c₁ start outline hopen =>
  have htapes : c₁.tapes = c.tapes := by
    split at hopen <;> cases hopen <;> rfl
  have hgrows := Outline.grows_addLine outline l.content d.store
  split at h
  · cases h
  · next outline' store _ hadd =>
    cases h
    rw [hadd] at hgrows
    exact (hc.mono (Nat.le_add_right n _)).replace (hdrafted.stored hgrows) htapes rfl

/-- A text line stores no more characters than its content has. -/
theorem Orderly.readText (hc : c.Orderly n) (h : c.readText l = .ok c') :
    c'.Orderly (n + l.content.length) := by
  obtain ⟨d, hd, h⟩ := bind_eq_ok_iff.mp h
  obtain ⟨line, hline, h⟩ := bind_eq_ok_iff.mp h
  have hdrafted := hc.draft d (draftFor_eq_ok hd)
  have hlength := sentencesLength_parseTextLine hline
  rw [String.length_ofList] at hlength
  dsimp only at h
  split at h
  · cases h
  · next store keys hstored =>
    have hgrows : d.store.Grows (sentencesLength line.sentences) store := by
      -- one sentence is a text, several are a sequence
      split at hstored
      · next sentence hsentence =>
        have hadd := d.store.grows_add line.name sentence.toList
        rw [hstored] at hadd
        exact hsentence ▸ hadd
      · have hadd := d.store.grows_addSequence line.name (line.sentences.map String.toList)
          (if line.once = true then .once else .loop)
        rwa [hstored] at hadd
    cases h
    have hd := hdrafted.stored (hgrows.mono hlength)
    exact (hc.mono (Nat.le_add_right n _)).replace hd rfl rfl

/-- Whatever a line declares, it stores at most twice as many characters as its content has. -/
theorem Orderly.readContent (hc : c.Orderly n) (h : c.readContent l = .ok c') :
    c'.Orderly (n + 2 * l.content.length) := by
  have hlater : c.Orderly (n + 2 * l.content.length) := hc.mono (Nat.le_add_right n _)
  rw [Compilation.readContent] at h
  split at h
  · exact hlater.readState h
  · exact (hc.readRule h).mono (by omega)
  · exact hc.readRoute h
  · exact (hc.readText h).mono (by omega)
  · cases h
    exact ⟨hlater.draft, hlater.tapes⟩
  · cases h
    exact hlater
  · cases h
    exact hlater

/-- No line of a script breaks the order, and each stores at most twice its characters. -/
theorem Orderly.readLine (hc : c.Orderly n) (h : c.readLine l = .ok c') :
    c'.Orderly (n + 2 * l.content.length) := by
  rw [Compilation.readLine] at h
  dsimp only at h
  split at h
  · exact hc.readContent (mapError_eq_ok_iff.mp h)
  · obtain ⟨c₁, hclose, h⟩ := bind_eq_ok_iff.mp h
    exact (hc.closeOutline hclose).readContent (mapError_eq_ok_iff.mp h)

end Lines

end Compilation

/-- The tape is one of a compiled script. -/
def Compiled (t : Tape) : Prop :=
  ∃ source script, compile source = .ok script ∧ t ∈ script.tapes

/-- What is computed of the compiled script comes from a script. -/
theorem exists_script_of_map {β : Type} {f : CompiledScript → β} {source : String} {b : β}
    (h : (compile source).toOption.map f = some b) :
    ∃ script, compile source = .ok script ∧ f script = b := exists_ok_of_map h

/-- A script that compiles to some tapes compiles. -/
theorem exists_script_of_tapes {source : String} {tapes : List Tape}
    (h : (compile source).toOption.map CompiledScript.tapes = some tapes) :
    ∃ script, compile source = .ok script ∧ script.tapes = tapes :=
  exists_script_of_map h

/-- The tapes that a script compiles to are compiled tapes. -/
theorem compiled_of_tapes (source : String) (tapes : List Tape)
    (h : (compile source).toOption.map CompiledScript.tapes = some tapes) {t : Tape}
    (ht : t ∈ tapes) : Compiled t := by
  obtain ⟨script, hcompile, rfl⟩ := exists_script_of_tapes h
  exact ⟨source, script, hcompile, ht⟩

/-- Every compiled tape is a sealed tape that was drafted line by line, and what it stores is at
most twice as long as the script. -/
theorem exists_drafted_of_compile {source : String} {script : CompiledScript}
    (h : compile source = .ok script) {t : Tape} (ht : t ∈ script.tapes) :
    ∃ d, Drafted (2 * source.length) d ∧ d.seal = .ok t := by
  obtain ⟨lines, hlines, h⟩ := bind_eq_ok_iff.mp h
  obtain ⟨c, hread, h⟩ := bind_eq_ok_iff.mp h
  obtain ⟨c₁, hclose, h⟩ := bind_eq_ok_iff.mp h
  obtain ⟨c₂, hseal, h⟩ := bind_eq_ok_iff.mp h
  cases h
  have hstart : Compilation.Orderly 0 {} := ⟨nofun, nofun⟩
  have hc := foldlM_ok_cost (fun l : ScriptLine => 2 * l.content.length) hread hstart
    fun _ _ _ _ _ hb hstep => hb.readLine hstep
  rw [total_two_mul_contents] at hc
  have hlength := contentsLength_splitScript hlines
  have hc : c.Orderly (2 * source.length) := hc.mono (by omega)
  exact ((hc.closeOutline hclose).sealDraft hseal).tapes t ht

/-- A compiled tape is the seal of one drafted line by line. -/
theorem Compiled.exists_drafted {t : Tape} (ht : Compiled t) :
    ∃ n d, Drafted n d ∧ d.seal = .ok t := by
  obtain ⟨source, script, h, ht⟩ := ht
  exact ⟨2 * source.length, exists_drafted_of_compile h ht⟩

/-! ### What every compiled tape satisfies -/

/-- No two locations of a state line share a name. -/
theorem distinct_parseStateLine {source : String} {line : StateLine}
    (h : parseStateLine source = .ok line) : line.world.Distinct := by
  rw [parseStateLine] at h
  dsimp only at h
  split at h
  · cases h
  · split at h
    · cases h
    · obtain ⟨locations, -, h⟩ := bind_eq_ok_iff.mp h
      cases h
      exact World.distinct_ofLocations locations

/-- A tape has a label. -/
theorem label_ne_of_parseStateLine {source : String} {line : StateLine}
    (h : parseStateLine source = .ok line) : line.label ≠ "" := by
  rw [parseStateLine] at h
  dsimp only at h
  split at h
  · cases h
  next hlabel =>
  split at h
  · cases h
  · obtain ⟨locations, -, h⟩ := bind_eq_ok_iff.mp h
    cases h
    intro hempty
    rw [← String.toList_inj, String.toList_ofList] at hempty
    rw [hempty] at hlabel
    exact hlabel rfl

/-- Adding counters leaves the names of locations distinct. -/
theorem distinct_addCounters {name : String} {counters : List String} {w w' : World}
    (hw : w.Distinct) (h : addCounters name counters w = .ok w') : w'.Distinct := by
  rw [addCounters] at h
  split at h
  · cases h
    exact hw
  · obtain ⟨tags, -, h⟩ := bind_eq_ok_iff.mp h
    cases h
    exact hw.withLocation name tags

/-- A rule is one that a rule line declares. -/
def Declared (r : Rule) : Prop := ∃ source line, parseRuleLine source = .ok line ∧ line.rule = r

/-- What is true of every tape under way: no two locations share a name, every rule stands on a rule
line, and ranges lie within their lines. -/
structure Draft.Sound (d : Draft) : Prop where
  distinct : d.world.Distinct
  declared : ∀ r ∈ d.rules, Declared r
  ranged : d.store.Ranged

/-- Every tape drafted line by line is sound. -/
theorem Drafted.sound {n : Nat} {d : Draft} (hd : Drafted n d) : d.Sound := by
  induction hd with
  | opened _ h =>
    exact ⟨distinct_parseStateLine h, fun r hr => absurd hr List.not_mem_nil,
      LineStore.ranged_empty⟩
  | rule _ h ih =>
    refine ⟨ih.distinct, fun r hr => ?_, ih.ranged⟩
    rcases List.mem_append.mp hr with hr | hr
    · exact ih.declared r hr
    · exact ⟨_, _, h, (List.mem_singleton.mp hr).symm⟩
  | stored _ h ih => exact ⟨ih.distinct, ih.declared, ih.ranged.grows h⟩
  | node _ name node ih => exact ⟨ih.distinct, ih.declared, ih.ranged⟩

/-- What a sealed tape is made of. -/
theorem Draft.seal_eq_ok {d : Draft} {t : Tape} (h : d.seal = .ok t) :
    ∃ w w', addCounters loopName d.store.loops d.world = .ok w ∧
      addCounters onceName d.store.onces w = .ok w' ∧
      t = { label := d.label, world := w', rules := d.rules, text := d.store.toBook d.routes } := by
  obtain ⟨w, hloops, h⟩ := bind_eq_ok_iff.mp h
  obtain ⟨w', honces, h⟩ := bind_eq_ok_iff.mp h
  exact ⟨w, w', hloops, honces, (pure_eq_ok_iff.mp h).symm⟩

/-- No two locations of a compiled tape share a name, those of its counters included. -/
theorem Compiled.distinct {t : Tape} (ht : Compiled t) : t.world.Distinct := by
  obtain ⟨_, d, hd, hseal⟩ := ht.exists_drafted
  obtain ⟨w, w', hloops, honces, rfl⟩ := Draft.seal_eq_ok hseal
  exact distinct_addCounters (distinct_addCounters hd.sound.distinct hloops) honces

/-- Every rule of a compiled tape stands on a rule line. -/
theorem Compiled.declared {t : Tape} (ht : Compiled t) : ∀ r ∈ t.rules, Declared r := by
  obtain ⟨_, d, hd, hseal⟩ := ht.exists_drafted
  obtain ⟨w, w', -, -, rfl⟩ := Draft.seal_eq_ok hseal
  exact hd.sound.declared

/-- The ranges of a compiled tape lie within their lines. -/
theorem Compiled.ranged {t : Tape} (ht : Compiled t) : t.text.Ranged := by
  obtain ⟨_, d, hd, hseal⟩ := ht.exists_drafted
  obtain ⟨w, w', -, -, rfl⟩ := Draft.seal_eq_ok hseal
  exact hd.sound.ranged.toBook d.routes

/-- A tape under way has the label of its state line. -/
theorem Drafted.label_ne {n : Nat} {d : Draft} (hd : Drafted n d) : d.label ≠ "" := by
  induction hd with
  | opened _ h => exact label_ne_of_parseStateLine h
  | rule _ _ ih | stored _ _ ih | node _ _ _ ih => exact ih

/-- A compiled tape has a label. -/
theorem Compiled.label_ne {t : Tape} (ht : Compiled t) : t.label ≠ "" := by
  obtain ⟨_, d, hd, hseal⟩ := ht.exists_drafted
  obtain ⟨w, w', -, -, rfl⟩ := Draft.seal_eq_ok hseal
  exact hd.label_ne

/-- A name has no more lines than characters were stored. -/
theorem Drafted.length_linesOf_le {n : Nat} {d : Draft} (hd : Drafted n d) (name : String) :
    (d.store.linesOf name).length ≤ n := by
  induction hd with
  | opened n _ => exact Nat.zero_le n
  | rule _ _ ih => exact ih
  | stored _ h ih => exact Nat.le_trans (h.length_linesOf_le name) (Nat.add_le_add_right ih _)
  | node _ _ _ ih => exact ih

/-- A tape has at most twice as many lines under a name as its script has characters. -/
theorem lineCount_le_of_compile {source : String} {script : CompiledScript}
    (h : compile source = .ok script) {t : Tape} (ht : t ∈ script.tapes) (name : String) :
    t.text.lineCount name ≤ 2 * source.length := by
  obtain ⟨d, hd, hseal⟩ := exists_drafted_of_compile h ht
  obtain ⟨w, w', -, -, rfl⟩ := Draft.seal_eq_ok hseal
  exact hd.length_linesOf_le name

end StoryTape.Script
