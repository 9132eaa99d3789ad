import StoryTape.Proofs.CompilationSteps
import StoryTape.Proofs.CompiledTapes
import StoryTape.Proofs.CounterTags
import StoryTape.Proofs.NamedGrowth
import StoryTape.Proofs.OutlineLines

/-!
# Where counters come from

Every text that a script stores has a name of letters, numbers, underscores and hyphens: rule and
text lines read such names, and the names of dialogue lines are made of that of a rule, hyphens and
numbers. So the counters of a compiled tape are those of such names, and each name has lines. The
world they are put into is that of the state line which opened the tape.
-/

namespace StoryTape.Script

open Text

namespace LineStore

/-- The first counters of the sequences of a kind, as declared. -/
def counters (s : LineStore) : SequenceKind → List String
  | .loop => s.loops
  | .once => s.onces

/-- Every counter is the first of a name that has lines. -/
def Counted (s : LineStore) : Prop :=
  ∀ kind, ∀ counter ∈ s.counters kind,
    ∃ name, counter = counterTag name 0 ∧ IsTextName name ∧ s.linesOf name ≠ []

/-- An empty store has no counters. -/
theorem counted_empty : Counted {} := by
  intro kind counter hcounter
  cases kind <;> cases hcounter

/-- A plain text declares no sequence. -/
theorem counters_addPlain (s : LineStore) (name : String) (text : List Char) (kind : SequenceKind) :
    (s.addPlain name text).1.counters kind = s.counters kind := by
  rw [addPlain]
  split <;> cases kind <;> rfl

/-- Noting a counter adds the first one of the name and no other. -/
theorem mem_counters_addCounter {s : LineStore} {name counter : String} {kind kind' : SequenceKind}
    (h : counter ∈ (s.addCounter name kind).counters kind') :
    counter ∈ s.counters kind' ∨ counter = counterTag name 0 := by
  rw [counterTag_zero]
  cases kind <;> cases kind' <;> simp_all [addCounter, counters]

/-- Storing under the name of a text keeps it so. -/
theorem Counted.growsUnder {s s' : LineStore} {name : String} (h : s.Counted)
    (hname : IsTextName name) (hgrows : s.GrowsUnder name s') : s'.Counted := by
  induction hgrows with
  | refl => exact h
  | @lines s₁ _ text ih =>
    intro kind counter hcounter
    rw [counters_addPlain] at hcounter
    obtain ⟨name', rfl, hname', hlines⟩ := ih kind counter hcounter
    have hadded : s₁.GrowsUnder name (s₁.addPlain name text).1 := .lines .refl text
    have hprefix := hadded.linesOf_prefix name'
    exact ⟨name', rfl, hname', fun hnil => hlines (List.prefix_nil.mp (hnil ▸ hprefix))⟩
  | @counter s₁ _ kind hlines ih =>
    intro kind' counter hcounter
    have hsame : ∀ name', (s₁.addCounter name kind).linesOf name' = s₁.linesOf name' := by
      cases kind <;> exact fun _ => rfl
    rcases mem_counters_addCounter hcounter with hcounter | rfl
    · obtain ⟨name', rfl, hname', hlines'⟩ := ih kind' counter hcounter
      exact ⟨name', rfl, hname', hsame name' ▸ hlines'⟩
    · exact ⟨name, rfl, hname, hsame name ▸ hlines⟩

end LineStore

/-! ### Names in lines -/

/-- A text is split into at least one sentence. -/
theorem trimSentences_ne_nil (separator : Char) (s : List Char) :
    trimSentences (splitChar separator s) ≠ [] :=
  mt List.map_eq_nil_iff.mp (splitChar_ne_nil separator s)

/-- A text line has the name of a text and a sentence. -/
theorem parseTextLine_eq_ok {source : String} {line : TextLine}
    (h : parseTextLine source = .ok line) : IsTextName line.name ∧ line.sentences ≠ [] := by
  obtain ⟨name, rest, hname, hline, hsentences⟩ := parseTextLine_eq_ok_iff.mp h
  refine ⟨hline ▸ isTextName_of_readName hname, ?_⟩
  rcases hsentences with ⟨-, honce⟩ | ⟨-, -, hloop⟩
  · exact (readOnce_eq_some_iff.mp honce).2 ▸ trimSentences_ne_nil '&' rest
  · exact (readLoop_eq_some_iff.mp hloop).2 ▸ trimSentences_ne_nil '|' rest

/-- The text of a rule has the name of a text. -/
theorem isTextName_of_readRuleText {s : List Char} {text : RuleText}
    (h : readRuleText s = some (some text)) : IsTextName text.name := by
  rw [readRuleText] at h
  split at h
  · cases h
  · obtain ⟨⟨name, rest⟩, hname, h⟩ := Option.bind_eq_some_iff.mp h
    have hname := isTextName_of_readName hname
    dsimp only at h
    split at h
    · cases h
      exact hname
    · obtain ⟨sentences, -, h⟩ := Option.bind_eq_some_iff.mp h
      cases h
      exact hname
  · cases h

/-- The text of a rule line has the name of a text. -/
theorem isTextName_of_parseRuleLine {source : String} {line : RuleLine}
    (h : parseRuleLine source = .ok line) {text : RuleText} (htext : line.text = some text) :
    IsTextName text.name := by
  obtain ⟨-, shape, hshape, hline⟩ := parseRuleLine_eq_ok h
  simp only [readRuleShape, bind, Option.bind_eq_some_iff] at hshape
  obtain ⟨⟨cost, drag, rest⟩, -, ⟨target, rest'⟩, -, text', hread, hshape⟩ := hshape
  cases hshape
  obtain rfl : text' = some text := hline.symm.trans htext
  exact isTextName_of_readRuleText hread

/-- The text that a rule names is that of its line. -/
theorem rule_text_of_parseRuleLine {source : String} {line : RuleLine}
    (h : parseRuleLine source = .ok line) : line.rule.text = line.text.map RuleText.name := by
  rw [parseRuleLine] at h
  split at h
  · cases h
  · obtain ⟨context, -, h⟩ := bind_eq_ok_iff.mp h
    obtain ⟨cost, -, h⟩ := bind_eq_ok_iff.mp h
    obtain ⟨target, -, h⟩ := bind_eq_ok_iff.mp h
    obtain ⟨payload, -, h⟩ := bind_eq_ok_iff.mp h
    obtain ⟨gain, -, h⟩ := bind_eq_ok_iff.mp h
    dsimp only at h
    split at h
    · cases h
    · cases h
      rfl

/-- The lines of a dialogue have names of texts when the dialogue has one. -/
theorem Cursor.isTextName_lineName {c : Cursor} (h : IsTextName c.root) (depth : Nat) :
    IsTextName (c.lineName depth) := by
  have hhyphen : IsTextName "-" := by decide +kernel
  have hchoice : IsTextName (c.choiceName depth) := by
    rw [Cursor.choiceName]
    generalize List.range (depth / 2 + 1) = levels
    generalize c.root = name at h
    induction levels generalizing name with
    | nil => exact h
    | cons level levels ih =>
      rw [List.foldl_cons]
      exact ih _ (isTextName_append (isTextName_append h hhyphen) (isTextName_countText _))
  rw [Cursor.lineName]
  refine isTextName_append hchoice ?_
  split <;> decide +kernel

/-! ### What lines store -/

/-- Sentences are stored under their name alone. -/
theorem growsUnder_storeSentences {store store' : LineStore} {name : String}
    {sentences : List String}
    (h : Compilation.storeSentences store name sentences = .ok store') :
    store.GrowsUnder name store' := by
  induction sentences generalizing store with
  | nil =>
    cases h
    exact .refl
  | cons sentence sentences ih =>
    have hadd := store.growsUnder_add name sentence.toList
    rw [Compilation.storeSentences] at h
    split at h
    · next next _ hstored =>
      rw [hstored] at hadd
      exact hadd.trans (ih h)
    · cases h

/-- A text line is stored under its name alone. -/
theorem growsUnder_storeTextLine (store : LineStore) {line : TextLine} (h : line.sentences ≠ []) :
    store.GrowsUnder line.name (storeTextLine store line).1 := by
  unfold storeTextLine
  split
  · exact store.growsUnder_add line.name _
  · exact store.growsUnder_addSequence line.name (by simpa using h) _

namespace LineStore

/-- The stores that come of storing under names of texts. -/
inductive GrowsNamed (s : LineStore) : LineStore → Prop
  /-- Nothing is stored. -/
  | refl : GrowsNamed s s
  /-- A text or a sequence is stored under a name. -/
  | under {s' s'' : LineStore} {name : String} (h : GrowsNamed s s') (hname : IsTextName name)
      (hgrows : s'.GrowsUnder name s'') : GrowsNamed s s''

/-- Storing under names of texts leaves every counter the first of a name that has lines. -/
theorem Counted.growsNamed {s s' : LineStore} (h : s.Counted) (hgrows : s.GrowsNamed s') :
    s'.Counted := by
  induction hgrows with
  | refl => exact h
  | under _ hname hunder ih => exact ih.growsUnder hname hunder

end LineStore

/-- The text of a rule line is stored under the name of a text. -/
theorem growsNamed_storeRuleText {store store' : LineStore} {source : String} {line : RuleLine}
    (hline : parseRuleLine source = .ok line) (hstore : storeRuleText store line.text = .ok store') :
    store.GrowsNamed store' := by
  cases htext : line.text with
  | none =>
    rw [htext] at hstore
    cases hstore
    exact .refl
  | some text =>
    rw [htext] at hstore
    exact .under .refl (isTextName_of_parseRuleLine hline htext) (growsUnder_storeSentences hstore)

/-- A line of dialogue stores under its own name and that of its label. -/
theorem growsNamed_addLine {store store' : LineStore} {o o' : Outline} {line : List Char}
    (hroot : IsTextName o.root) (hadd : o.addLine line store = (o', store', .ok ())) :
    store.GrowsNamed store' := by
  obtain ⟨depth, deadEnd, content, cursor, keys, -, hmove, hstore, rfl⟩ :=
    Outline.addLine_eq_ok hadd
  have hcursor : IsTextName cursor.root := (Cursor.advance_eq_ok hmove).1.symm ▸ hroot
  have hname := Cursor.isTextName_lineName hcursor depth
  rw [Outline.storeLine] at hstore
  split at hstore
  · cases hstore
    exact .refl
  · split at hstore
    · obtain ⟨label, full, store₁, labelKeys, -, hlabel, hfull⟩ := Outline.storeChoice_eq_ok hstore
      have hgrows := store.growsUnder_add (cursor.lineName depth ++ "S") label
      have hgrows₁ := store₁.growsUnder_add (cursor.lineName depth) full
      rw [hlabel] at hgrows
      rw [hfull] at hgrows₁
      have hlabelName := isTextName_append hname (by decide +kernel : IsTextName "S")
      exact .under (.under .refl hlabelName hgrows) hname hgrows₁
    · refine .under .refl hname ?_
      rw [Outline.storeAnswer] at hstore
      split at hstore
      · have hparts : (splitChar '|' content).map trim ≠ [] :=
          mt List.map_eq_nil_iff.mp (splitChar_ne_nil '|' content)
        have hgrows := store.growsUnder_addSequence (cursor.lineName depth) hparts .loop
        rwa [hstore] at hgrows
      · have hgrows := store.growsUnder_add (cursor.lineName depth) content
        rwa [hstore] at hgrows

/-- A text line stores under the name it gives. -/
theorem growsNamed_storeTextLine {store store' : LineStore} {source : String} {line : TextLine}
    {keys : List String} (hline : parseTextLine source = .ok line)
    (hstore : storeTextLine store line = (store', .ok keys)) : store.GrowsNamed store' := by
  obtain ⟨hname, hsentences⟩ := parseTextLine_eq_ok hline
  have hgrows := growsUnder_storeTextLine store hsentences
  rw [hstore] at hgrows
  exact .under .refl hname hgrows

/-! ### What tapes are opened with -/

/-- A state line among the lines opens a tape of the given label with the given world. -/
def Opens (lines : List ScriptLine) (label : String) (w : World) : Prop :=
  ∃ l ∈ lines, l.kind = .state ∧ parseStateLine (String.ofList l.content) = .ok ⟨label, w⟩

/-- What the lines of a script leave in a tape under way. -/
structure Draft.Traced (lines : List ScriptLine) (d : Draft) : Prop where
  /-- The world is that of its state line. -/
  opened : Opens lines d.label d.world
  /-- Rules name texts. -/
  texts : ∀ r ∈ d.rules, ∀ name, r.text = some name → IsTextName name
  /-- Counters are those of names that have lines. -/
  counted : d.store.Counted

/-- A dialogue has the name of a text. -/
theorem Draft.Traced.isTextName_dialogueRoot {lines : List ScriptLine} {d : Draft}
    (h : d.Traced lines) : IsTextName (Compilation.dialogueRoot d) := by
  rw [Compilation.dialogueRoot]
  cases hroot : d.rules.getLast?.bind Rule.text with
  | none => decide +kernel
  | some name =>
    obtain ⟨r, hr, hname⟩ := Option.bind_eq_some_iff.mp hroot
    exact h.texts r (List.mem_of_getLast? hr) name hname

namespace Compilation

variable {c c' : Compilation} {l : ScriptLine} {lines : List ScriptLine}

/-- What holds of all tapes all along a compilation. -/
structure Traced (lines : List ScriptLine) (c : Compilation) : Prop where
  draft : ∀ d ∈ c.draft, d.Traced lines
  tapes : ∀ t ∈ c.tapes, ∃ d : Draft, d.Traced lines ∧ d.seal = .ok t
  outline : ∀ opened ∈ c.outline, IsTextName opened.2.root

/-- Closing a dialogue keeps the tapes traced to their lines. -/
theorem Traced.closeOutline (h : c.Traced lines) (hclose : c.closeOutline = .ok c') :
    c'.Traced lines := by
  rcases closeOutline_eq_ok_iff.mp hclose with
    ⟨-, rfl⟩ | ⟨start, o, d, nodes, -, hd, -, -, rfl⟩
  · exact h
  · obtain ⟨hopened, htexts, hcounted⟩ := h.draft d hd
    refine ⟨?_, h.tapes, nofun⟩
    rintro _ ⟨⟩
    exact ⟨hopened, htexts, hcounted⟩

/-- Sealing a tape keeps the tapes traced to their lines. -/
theorem Traced.sealDraft (h : c.Traced lines) (hseal : c.sealDraft = .ok c') :
    c'.Traced lines := by
  rcases sealDraft_eq_ok_iff.mp hseal with ⟨-, rfl⟩ | ⟨d, t, hd, ht, rfl⟩
  · exact h
  · refine ⟨nofun, fun t' ht' => ?_, h.outline⟩
    rcases List.mem_append.mp ht' with ht' | ht'
    · exact h.tapes t' ht'
    · exact ⟨d, h.draft d hd, List.mem_singleton.mp ht' ▸ ht⟩

/-- The dialogue that a line belongs to has the name of a text. -/
theorem Traced.isTextName_root (h : c.Traced lines) {d : Draft} (hd : c.draft = some d)
    {number start : Nat} {o : Outline} (hopen : c.dialogueFor d number = (c', start, o)) :
    IsTextName o.root := by
  unfold dialogueFor at hopen
  split at hopen
  · next ho =>
    cases hopen
    exact h.outline _ ho
  · cases hopen
    exact (h.draft d hd).isTextName_dialogueRoot

/-- Whatever a line declares, the tapes stay traced to their lines. -/
theorem Traced.readContent (h : c.Traced lines) (hl : l ∈ lines)
    (hread : c.readContent l = .ok c') : c'.Traced lines := by
  rw [Compilation.readContent] at hread
  cases hkind : l.kind <;> simp only [hkind] at hread
  case state =>
    obtain ⟨c₁, line, hseal, hline, -, rfl⟩ := readState_eq_ok_iff.mp hread
    have h₁ := h.sealDraft hseal
    refine ⟨?_, h₁.tapes, h₁.outline⟩
    rintro _ ⟨⟩
    have hopened : Opens lines line.label line.world := ⟨l, hl, hkind, hline⟩
    exact ⟨hopened, fun r hr => absurd hr List.not_mem_nil, LineStore.counted_empty⟩
  case rule =>
    obtain ⟨d, line, store, hd, hline, hstore, rfl⟩ := readRule_eq_ok_iff.mp hread
    obtain ⟨hopened, htexts, hcounted⟩ := h.draft d hd
    refine ⟨?_, h.tapes, h.outline⟩
    rintro _ ⟨⟩
    refine ⟨hopened, fun r hr name hname => ?_, hcounted.growsNamed (growsNamed_storeRuleText hline hstore)⟩
    rcases List.mem_append.mp hr with hr | hr
    · exact htexts r hr name hname
    · rw [List.mem_singleton.mp hr, rule_text_of_parseRuleLine hline] at hname
      obtain ⟨text, htext, rfl⟩ := Option.map_eq_some_iff.mp hname
      exact isTextName_of_parseRuleLine hline htext
  case route =>
    obtain ⟨d, c₁, start, o, o', store, hd, hopen, hadd, rfl⟩ := readRoute_eq_ok_iff.mp hread
    have hdraft := h.draft d hd
    have hroot := h.isTextName_root hd hopen
    refine ⟨?_, tapes_dialogueFor hopen ▸ h.tapes, ?_⟩
    · rintro _ ⟨⟩
      exact ⟨hdraft.opened, hdraft.texts, hdraft.counted.growsNamed (growsNamed_addLine hroot hadd)⟩
    · rintro _ ⟨⟩
      exact (Outline.root_addLine hadd).symm ▸ hroot
  case text =>
    obtain ⟨d, line, store, keys, hd, hline, hstore, rfl⟩ := readText_eq_ok_iff.mp hread
    obtain ⟨hopened, htexts, hcounted⟩ := h.draft d hd
    refine ⟨?_, h.tapes, h.outline⟩
    rintro _ ⟨⟩
    exact ⟨hopened, htexts, hcounted.growsNamed (growsNamed_storeTextLine hline hstore)⟩
  all_goals
    cases hread
    exact ⟨h.draft, h.tapes, h.outline⟩

/-- Reading a line keeps the tapes traced to their lines. -/
theorem Traced.readLine (h : c.Traced lines) (hl : l ∈ lines) (hread : c.readLine l = .ok c') :
    c'.Traced lines := by
  rcases readLine_cases hread with ⟨-, hcontent⟩ | ⟨-, c₁, hclose, hcontent⟩
  · exact h.readContent hl hcontent
  · exact (h.closeOutline hclose).readContent hl hcontent

end Compilation

/-- Every compiled tape is a sealed tape that was opened by a state line of its script and whose
counters are those of names with lines. -/
theorem exists_traced_of_compile {source : String} {script : CompiledScript}
    (h : compile source = .ok script) {t : Tape} (ht : t ∈ script.tapes) :
    ∃ lines, splitScript source = .ok lines ∧ ∃ d : Draft, d.Traced lines ∧ d.seal = .ok t := by
  obtain ⟨lines, c, hlines, hread, hfinish⟩ := compile_eq_ok_iff.mp h
  obtain ⟨c₁, c₂, hclose, hseal, rfl⟩ := Compilation.finish_eq_ok_iff.mp hfinish
  have hc : c.Traced lines := foldlM_ok_induction hread ⟨nofun, nofun, nofun⟩
    fun _ hl _ _ hc hstep => hc.readLine hl hstep
  exact ⟨lines, hlines, ((hc.closeOutline hclose).sealDraft hseal).tapes t ht⟩

end StoryTape.Script
