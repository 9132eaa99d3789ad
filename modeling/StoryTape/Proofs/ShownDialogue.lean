import StoryTape.Play.Playthrough
import StoryTape.Proofs.DialogueRecords
import StoryTape.Proofs.SequencePositions

/-!
# What a dialogue shows

A turn that leads to a node shows the keys of the node in reading order, each as it stands: a
sequence by its current line, any other key by itself. A compiled dialogue leaves out lines. Its
root shows the first line under its name, and an answered choice the first line under its own name,
however many lines the two texts have; the texts of answers, and those of choices nobody answers,
are shown in full.
-/

namespace StoryTape

open Text

/-! ### Showing keys -/

/-- What a key shows in a world: of a sequence the current line, any other key itself. -/
def TextBook.currentKey (b : TextBook) (w : World) (key : String) : String :=
  match w.counter? key with
  | none => key
  | some (_, index) =>
    if b.lineCount key = 0 then key else lineKey key (min index (b.lineCount key - 1))

/-- Keys that are shown as they stand: the counter of a sequence among them reads at every position,
and no key before it has moved it. -/
structure World.Calm (w : World) (keys : List String) : Prop where
  reads : ∀ key ∈ keys, w.counter? key = none ∨ w.Distinct ∧ Countable key
  once : keys.Pairwise fun key key' => key = key' → w.counter? key = none

/-- What showing a key does to the world: no counter but that of the key has moved. -/
structure World.MovesOnly (w : World) (key : String) (w' : World) : Prop where
  distinct : w.Distinct → w'.Distinct
  counter : ∀ key', (key = key' → w.counter? key = none) → w'.counter? key' = w.counter? key'

variable {b : TextBook} {w w' : World} {key name : String} {keys : List String}

/-- Where a counter is found there is a place for its kind. -/
theorem World.hasPlace_of_counter? {kind : SequenceKind} {index : Nat}
    (h : w.counter? key = some (kind, index)) : w.HasPlace kind.place := by
  obtain ⟨kind', -, hkind⟩ := List.exists_of_findSome?_eq_some h
  obtain ⟨index', hposition, hsame⟩ := Option.map_eq_some_iff.mp hkind
  cases hsame
  obtain ⟨tags, htags, -⟩ := Option.bind_eq_some_iff.mp hposition
  obtain ⟨l, hl, -⟩ := Option.map_eq_some_iff.mp htags
  exact World.hasPlace_iff_location?.mpr ⟨l, hl⟩

namespace TextBook

/-- A key without counter shows itself. -/
theorem currentKey_of_counter_none (hw : w.counter? key = none) : b.currentKey w key = key := by
  rw [currentKey, hw]

/-- What a key shows depends on its own counter alone. -/
theorem currentKey_congr (h : w'.counter? key = w.counter? key) :
    b.currentKey w' key = b.currentKey w key := by
  rw [currentKey, currentKey, h]

/-- Where no sequence is read, the key shows itself. -/
theorem currentKey_of_readSequence?_eq_none (h : b.readSequence? w key = none) :
    b.currentKey w key = key := by
  simp only [readSequence?] at h
  rw [currentKey]
  split
  · rfl
  · next kind index hcounter =>
    simp only [hcounter] at h
    split at h
    · next hcount => rw [if_pos hcount]
    · cases h

/-- A sequence shows its current line, and its counter can be moved on if it is always read. -/
theorem of_readSequence?_eq_some {reading : Reading} (h : b.readSequence? w key = some reading) :
    reading.keys = [b.currentKey w key] ∧ (w.Distinct → Countable key →
      ∃ w', w.apply reading.operations = .ok w' ∧ w.MovesOnly key w') := by
  simp only [readSequence?] at h
  split at h
  · cases h
  · next kind index hcounter =>
    split at h
    · cases h
    · next hcount =>
      cases h
      refine ⟨by simp only [currentKey, hcounter, if_neg hcount], fun hw hcountable => ?_⟩
      dsimp only
      split
      · exact ⟨w, rfl, id, fun _ _ => rfl⟩
      · obtain ⟨w', happly, hdistinct, hothers⟩ :=
          hw.apply_moveCounter (World.hasPlace_of_counter? hcounter) hcountable _ _
        refine ⟨w', happly, fun _ => hdistinct, fun key' hkey' => hothers key' ?_⟩
        rintro rfl
        rw [hkey' rfl] at hcounter
        cases hcounter

/-- A key that has a line is read as it stands. -/
theorem exists_readKey (hkey : b.hasLine key = true)
    (hw : w.counter? key = none ∨ w.Distinct ∧ Countable key) :
    ∃ reading w', b.readKey w key = .ok reading ∧ reading.keys = [b.currentKey w key] ∧
      w.apply reading.operations = .ok w' ∧ w.MovesOnly key w' := by
  cases hread : b.readSequence? w key with
  | none =>
    obtain ⟨line, hline⟩ := hasLine_eq_true_iff.mp hkey
    refine ⟨{ keys := [key] }, w, ?_, ?_, rfl, id, fun _ _ => rfl⟩
    · rw [readKey, hread, hline]
      rfl
    · rw [currentKey_of_readSequence?_eq_none hread]
  | some reading =>
    have hcounter : w.counter? key ≠ none := fun hnone => by
      simp [readSequence?, hnone] at hread
    obtain ⟨hdistinct, hcountable⟩ := hw.resolve_left hcounter
    obtain ⟨hkeys, happly⟩ := of_readSequence?_eq_some hread
    obtain ⟨w', happly, hmoves⟩ := happly hdistinct hcountable
    exact ⟨reading, w', by rw [readKey, hread], hkeys, happly, hmoves⟩

end TextBook

namespace Playthrough

/-- A key is shown as it stands, then the other keys in the world after it. -/
theorem showKeys_cons (keys : List String) (hkey : b.hasLine key = true)
    (hw : w.counter? key = none ∨ w.Distinct ∧ Countable key) :
    ∃ w', w.MovesOnly key w' ∧ showKeys b w (key :: keys) =
      (showKeys b w' keys).map fun shown => (shown.1, b.currentKey w key :: shown.2) := by
  obtain ⟨reading, w', hread, hshown, happly, hmoves⟩ := TextBook.exists_readKey hkey hw
  refine ⟨w', hmoves, ?_⟩
  rw [showKeys, hread]
  simp only [showReading, happly, hshown, Bind.bind, Except.bind, Pure.pure, Except.pure]
  cases showKeys b w' keys <;> rfl

/-- Keys that are calm can be shown, each as it stands. -/
theorem exists_showKeys (hkeys : ∀ key ∈ keys, b.hasLine key = true) (hcalm : w.Calm keys) :
    ∃ w', showKeys b w keys = .ok (w', keys.map (b.currentKey w)) := by
  induction keys generalizing w with
  | nil => exact ⟨w, rfl⟩
  | cons key keys ih =>
    obtain ⟨hreads, honce⟩ := hcalm
    obtain ⟨hkey, hkeys⟩ := List.forall_mem_cons.mp hkeys
    obtain ⟨hread, hreads⟩ := List.forall_mem_cons.mp hreads
    obtain ⟨hfirst, honce⟩ := List.pairwise_cons.mp honce
    obtain ⟨w', hmoves, hshow⟩ := showKeys_cons keys hkey hread
    have hsame : ∀ key' ∈ keys, w'.counter? key' = w.counter? key' :=
      fun key' hkey' => hmoves.counter key' (hfirst key' hkey')
    have hcalm : w'.Calm keys := by
      refine ⟨fun key' hkey' => ?_, honce.imp_of_mem fun hmem _ hnone hequal => ?_⟩
      · rw [hsame key' hkey']
        exact (hreads key' hkey').imp_right fun h => ⟨hmoves.distinct h.1, h.2⟩
      · rw [hsame _ hmem]
        exact hnone hequal
    obtain ⟨w'', hrest⟩ := ih hkeys hcalm
    refine ⟨w'', ?_⟩
    rw [hshow, hrest, List.map_cons,
      List.map_congr_left fun key' hkey' => TextBook.currentKey_congr (hsame key' hkey')]
    rfl

/-- What a node shows comes first, and nothing comes after it unless the node goes on. -/
theorem enter_node {node : DialogueNode} {shown : List String} (hnode : b.route? name = some node)
    (hshow : showKeys b w node.readingOrder = .ok (w', shown)) :
    (node.choices ≠ [] ∨ node.goto = none → ∃ offered, enter b w name = .ok (w', offered, shown)) ∧
      ∀ r, enter b w name = .ok r → shown <+: r.2.2 := by
  obtain ⟨hops, hlimit⟩ : ∃ hops, gotoLimit = hops + 1 := ⟨31, rfl⟩
  rw [enter, hlimit, follow, hnode]
  simp only [hshow]
  cases hchoices : node.choices with
  | cons c choices =>
    refine ⟨fun _ => ⟨some name, rfl⟩, fun r hr => ?_⟩
    cases hr
    exact List.prefix_refl _
  | nil =>
    cases hgoto : node.goto with
    | none =>
      refine ⟨fun _ => ⟨none, rfl⟩, fun r hr => ?_⟩
      cases hr
      exact List.prefix_refl _
    | some next =>
      refine ⟨by simp, fun r hr => ?_⟩
      cases hfollow : follow b hops w' next with
      | none =>
        simp only [hfollow] at hr
        cases hr
      | some rest =>
        simp only [hfollow] at hr
        obtain ⟨⟨w'', offered, others⟩, -, hr⟩ := bind_eq_ok_iff.mp hr
        cases hr
        exact List.prefix_append _ _

/-- A turn that leads to a node shows the keys of the node, and nothing more unless the node goes
on. -/
theorem advance_node {p : Playthrough} {operations : List Operation} {scene : String}
    {node : DialogueNode} (hnode : p.book.route? name = some node)
    (hkeys : ∀ key ∈ node.readingOrder, p.book.hasLine key = true)
    (happly : p.world.applyInScene p.scene operations = .ok (w, scene))
    (hcalm : w.Calm node.readingOrder) :
    (node.choices ≠ [] ∨ node.goto = none → ∃ p', p.advance operations (some name) =
      (p', .ok (node.readingOrder.map (p.book.currentKey w)))) ∧
    ∀ p' shown, p.advance operations (some name) = (p', .ok shown) →
      node.readingOrder.map (p.book.currentKey w) <+: shown := by
  obtain ⟨w', hshow⟩ := exists_showKeys hkeys hcalm
  obtain ⟨hends, hprefix⟩ := enter_node hnode hshow
  refine ⟨fun hlast => ?_, fun p' shown hturn => ?_⟩
  · obtain ⟨offered, henter⟩ := hends hlast
    refine ⟨p.push ⟨w', scene, offered⟩, advance_eq_ok_iff.mpr ⟨_, ?_, rfl⟩⟩
    refine bind_eq_ok_iff.mpr ⟨_, happly, ?_⟩
    exact bind_eq_ok_iff.mpr ⟨_, henter, rfl⟩
  · obtain ⟨f, hframe, -⟩ := advance_eq_ok_iff.mp hturn
    obtain ⟨applied, happly', hframe⟩ := bind_eq_ok_iff.mp hframe
    obtain rfl : (w, scene) = applied := Except.ok.inj (happly.symm.trans happly')
    obtain ⟨r, henter, hframe⟩ := bind_eq_ok_iff.mp hframe
    have hshown := hprefix r henter
    cases hframe
    exact hshown

end Playthrough

/-! ### Sequences of a tape -/

/-- The name of a sequence of a tape: its counter is in the place of its kind, and reads at every
position. -/
def Tape.Sequence (t : Tape) (name : String) : Prop :=
  Countable name ∧ ∃ kind, t.Registers kind name

namespace Script

/-- The sequences noted by a store are those of the tape that comes of it. -/
theorem sequence_of_seal {lines : List ScriptLine} {d : Draft} {t : Tape} (hd : d.Traced lines)
    (hseal : d.seal = .ok t) {name : String} (hname : d.store.Noted name) : t.Sequence name := by
  obtain ⟨w, w', hloops, honces, rfl⟩ := Draft.seal_eq_ok hseal
  obtain ⟨kind, hcounter⟩ := hname
  obtain ⟨name', hsame, htext, -⟩ := hd.counted kind _ hcounter
  obtain ⟨rfl, -⟩ := counterTag_inj.mp hsame
  obtain ⟨tag, hparse, hholds⟩ : ∃ tag, Tag.parse (counterTag name 0) = .ok tag ∧
      w'.HoldsRaw tag.raw kind.place := by
    cases kind with
    | loop =>
      obtain ⟨tag, hparse, hholds⟩ := World.exists_holdsRaw_of_addCounters hloops hcounter
      exact ⟨tag, hparse, hholds.addCounters honces (by decide)⟩
    | once => exact World.exists_holdsRaw_of_addCounters honces hcounter
  have hcountable := countable_of_parse htext hparse
  obtain ⟨tag', hparse', hraw, -⟩ := hcountable 0
  cases hparse.symm.trans hparse'
  rw [hraw] at hholds
  exact ⟨hcountable, kind, hholds⟩

/-- Nothing is dropped from the end of the name of a text. -/
theorem isBare_of_isTextName {name : String} (h : IsTextName name) : IsBare name := by
  have hmarks : isNameChar '%' = false ∧ isNameChar '#' = false := by decide +kernel
  by_cases hempty : name = ""
  · subst hempty
    rfl
  · have hne : name.toList ≠ [] := fun hnil => hempty (String.toList_inj.mp hnil)
    have hbare := isBare_append "" hne (List.any_eq_false.mpr fun c hc => ?_)
    · rwa [String.empty_append] at hbare
    · rw [Bool.or_eq_true, beq_iff_eq, beq_iff_eq]
      rintro (rfl | rfl)
      · exact absurd (h _ hc) (by simp [hmarks.1])
      · exact absurd (h _ hc) (by simp [hmarks.2])

/-- The name of a text that has a line is a key. -/
theorem CompiledInMemory.hasLine_name {t : Tape} (ht : CompiledInMemory t) {name : String}
    (hname : IsTextName name) (hcount : t.text.lineCount name ≠ 0) :
    t.text.hasLine name = true := by
  have hfits : t.text.Fits := fun name => Nat.le_of_lt (ht.lineCount_lt name)
  obtain ⟨source, script, -, hcompile, ht⟩ := ht
  obtain ⟨store, routes, htext, -⟩ := Compilation.exists_leads_of_compile hcompile ht
  rw [htext] at hfits hcount ⊢
  have hlines : store.linesOf name ≠ [] := fun hnil => hcount (List.length_eq_zero_iff.mpr hnil)
  exact (LineStore.keyed_name (isBare_of_isTextName hname) hlines).hasLine hfits

/-- The key of the first line is all keys of a name exactly when there is one line. -/
theorem singleton_eq_numbered_iff {name : String} {count : Nat} :
    [name] = (List.range count).map (lineKey name) ↔ count = 1 := by
  constructor
  · intro h
    simpa using (congrArg List.length h).symm
  · rintro rfl
    rfl

/-- The names of the dialogues of a script. -/
def CompiledScript.dialogues (script : CompiledScript) : List String :=
  script.parts.filterMap fun (_, part) =>
    match part with
    | .route root => some root
    | _ => none

/-- Every dialogue of a script is one of its parts. -/
theorem CompiledScript.exists_part_of_mem_dialogues {script : CompiledScript} {name : String}
    (h : name ∈ script.dialogues) : ∃ number, (number, Part.route name) ∈ script.parts := by
  obtain ⟨⟨number, part⟩, hpart, hname⟩ := List.mem_filterMap.mp h
  cases part <;> cases hname
  exact ⟨number, hpart⟩

/-- **Dialogue shows all of its text only where its names have one line.** An action whose text is
no sequence and names a dialogue of the tape shows the first line of that text, which is all of it
exactly when it is the only one. A choice leads to a node of the tape; taking it shows the keys of
its full text when nobody answers, and else its name and then the keys of the answer, a sequence by
its current line. That is all of the text exactly when nobody answers or the name is the only key of
the full text. -/
theorem compiled_dialogue_shows {source : String} {script : CompiledScript}
    {lines : List ScriptLine} (hcompile : compile source = .ok script)
    (hsize : 2 * source.length < wordSize) (hlines : splitScript source = .ok lines) {t : Tape}
    (ht : t ∈ script.tapes) :
    (∀ name ∈ script.dialogues, ∀ node, t.text.route? name = some node →
      t.text.lineCount name ≠ 0 →
      ∀ (p : Playthrough) (a : Action) (w : World) (scene : String), p.tape = t →
        a.text = some name → p.world.applyInScene p.scene a.operations = .ok (w, scene) →
        w.counter? name = none →
        ∃ p' shown, p.perform a = (p', .ok shown) ∧ shown = [name] ∧
          (shown = (List.range (t.text.lineCount name)).map (lineKey name) ↔
            t.text.lineCount name = 1)) ∧
    ∀ name node c, t.text.route? name = some node → c ∈ node.choices →
      ∃ keys answer next, Told lines t.text.linesOf t.Sequence c keys answer ∧
        t.text.route? c.next = some next ∧ next.readingOrder = nodeKeys c.next keys answer ∧
        (next.readingOrder = keys ++ answer.getD [] ↔ answer = none ∨ keys = [c.next]) ∧
        ∀ (p : Playthrough) (step : ChoiceStep) (w : World) (scene : String), p.tape = t →
          step.next = c.next → p.world.applyInScene p.scene step.operations = .ok (w, scene) →
          w.Calm next.readingOrder →
          (next.choices ≠ [] ∨ next.goto = none → ∃ p', p.take step =
            (p', .ok (next.readingOrder.map (t.text.currentKey w)))) ∧
          ∀ p' shown, p.take step = (p', .ok shown) →
            next.readingOrder.map (t.text.currentKey w) <+: shown := by
  obtain ⟨⟨d, htraced, hspeaks, hseal⟩, hroots⟩ := exists_recorded_of_compile hcompile hlines ht
  have hmemory : CompiledInMemory t := ⟨source, script, hsize, hcompile, ht⟩
  constructor
  · intro name hname node hnode hcount p a w scene hp htext happly hw
    obtain ⟨number, hpart⟩ := CompiledScript.exists_part_of_mem_dialogues hname
    obtain ⟨htextName, hroot⟩ := hroots number name hpart
    obtain ⟨hshows, hchoices⟩ := hroot node hnode
    have horder : node.readingOrder = [name] := by rw [DialogueNode.readingOrder, hshows]; rfl
    have hkeys : ∀ key ∈ node.readingOrder, t.text.hasLine key = true := by
      intro key hkey
      rw [horder] at hkey
      exact List.mem_singleton.mp hkey ▸ hmemory.hasLine_name htextName hcount
    have hcalm : w.Calm node.readingOrder := by
      rw [horder]
      exact ⟨fun key hkey => .inl (List.mem_singleton.mp hkey ▸ hw), List.pairwise_singleton _ _⟩
    subst hp
    obtain ⟨hturn, -⟩ := Playthrough.advance_node hnode hkeys happly hcalm
    obtain ⟨p', hperform⟩ := hturn (.inl hchoices)
    refine ⟨p', [name], ?_, rfl, singleton_eq_numbered_iff⟩
    rw [Playthrough.perform, htext, hperform, horder, List.map_singleton,
      TextBook.currentKey_of_counter_none hw]
  · intro name node c hnode hc
    obtain ⟨-, next, hnext, hkeys⟩ := hmemory.leads hnode hc
    obtain ⟨keys, answer, htold, hshown⟩ : Spoken lines t.text.linesOf t.Sequence c next := by
      have hsequence : ∀ name, d.store.Noted name → t.Sequence name :=
        fun _ => sequence_of_seal htraced hseal
      obtain ⟨w, w', -, -, rfl⟩ := Draft.seal_eq_ok hseal
      obtain ⟨next', hnext', hspoken⟩ := hspeaks name node hnode c hc
      cases hnext.symm.trans hnext'
      exact hspoken.mono (fun _ => List.prefix_refl _) hsequence
    refine ⟨keys, answer, next, htold, hnext, hshown, hshown ▸ nodeKeys_eq_append_iff,
      fun p step w scene hp hstep happly hcalm => ?_⟩
    subst hp
    rw [Playthrough.take, hstep]
    exact Playthrough.advance_node hnext (fun key hkey => hkeys key (List.mem_reverse.mp hkey))
      happly hcalm

namespace Bakery

/-- Nobody answers who asks for bread, and the weather is talked about in turn. -/
def source : String :=
  "== BAKERY [BAKERY, baker]\n++ ()-[?baker]->() #GREET Good morning.\n" ++
  "-- Bread[], please.</>And a bun.\n-- Hello[] there.\n--- Fine day.|Rain again."

/-- The player speaks to the baker. -/
def greet : Action :=
  { description := "Poke the baker. ", text := some "GREET",
    operations := [.assertTagIn "baker" "BAKERY"] }

/-- The choices of the player. -/
def choices : List Choice :=
  [{ label := "GREET-1S", next := "GREET-1" }, { label := "GREET-2S", next := "GREET-2" }]

/-- The tape of the bakery: its nodes, and where it starts. -/
def Opened (t : Tape) : Prop :=
  t.text.lineCount "GREET" = 1 ∧ t.text.route? "GREET" = some { text := ["GREET"], choices } ∧
    t.text.route? "GREET-1" = some { text := ["GREET-1_1", "GREET-1"] } ∧
    t.text.route? "GREET-2" = some { text := ["GREET-2-0", "GREET-2"] } ∧
    t.world.Distinct ∧
    (∀ key ∈ ["GREET", "GREET-1", "GREET-1_1", "GREET-2"], t.world.counter? key = none) ∧
    t.text.currentKey t.world "GREET-2-0" = "GREET-2-0"

instance (t : Tape) : Decidable (Opened t) := inferInstanceAs (Decidable (_ ∧ _))

/-- The source compiles to the tape of the bakery. -/
theorem exists_compiled : ∃ script t, compile source = .ok script ∧ t ∈ script.tapes ∧
    "GREET" ∈ script.dialogues ∧ Opened t := by
  have hfacts : (compile source).toOption.map (fun s =>
      (s.dialogues, s.tapes.map fun t => decide (Opened t))) = some (["GREET"], [true]) := by
    decide +kernel
  obtain ⟨script, hcompile, hscript⟩ := exists_script_of_map hfacts
  obtain ⟨hdialogues, htapes⟩ := Prod.mk.inj hscript
  obtain ⟨t, ht, hopened⟩ := List.map_eq_singleton_iff.mp htapes
  exact ⟨script, t, hcompile, ht ▸ List.mem_cons_self, hdialogues ▸ List.mem_cons_self,
    of_decide_eq_true hopened⟩

/-- The weather can be talked about at every position. -/
theorem countable : Countable "GREET-2-0" := by
  have hreads : (Tag.parse (counterTag "GREET-2-0" 0)).isOk = true := by decide +kernel
  cases hparse : Tag.parse (counterTag "GREET-2-0" 0) with
  | ok tag => exact countable_of_parse (by decide +kernel) hparse
  | error e =>
    rw [hparse] at hreads
    cases hreads

end Bakery

/-- Every line of the talk in the bakery is shown, of the weather the first. -/
theorem bakery_talk_shown :
    ∃ script lines t, compile Bakery.source = .ok script ∧
      splitScript Bakery.source = .ok lines ∧ t ∈ script.tapes ∧
      ∀ p : Playthrough, p.tape = t → p.world = t.world →
        (∃ p', p.perform Bakery.greet = (p', .ok ["GREET"])) ∧
        (∃ p', p.take ⟨"GREET-1", []⟩ = (p', .ok ["GREET-1", "GREET-1_1"])) ∧
        ∃ p', p.take ⟨"GREET-2", []⟩ = (p', .ok ["GREET-2", "GREET-2-0"]) := by
  obtain ⟨script, t, hcompile, ht, hdialogue, hcount, hroot, hbread, hhello, hdistinct, hplain,
    hcurrent⟩ := Bakery.exists_compiled
  obtain ⟨lines, -, hlines, -⟩ := compile_eq_ok_iff.mp hcompile
  simp only [List.forall_mem_cons, List.not_mem_nil, false_implies, implies_true, and_true]
    at hplain
  obtain ⟨hgreet, hask, hbun, hsay⟩ := hplain
  obtain ⟨hperform, htake⟩ :=
    compiled_dialogue_shows hcompile (by decide +kernel) hlines ht
  refine ⟨script, lines, t, hcompile, hlines, ht, fun p hp hworld => ⟨?_, ?_, ?_⟩⟩
  · obtain ⟨p', _, hturn, rfl, -⟩ := hperform "GREET" hdialogue _ hroot (by simp [hcount]) p
      Bakery.greet p.world p.scene hp rfl rfl (hworld ▸ hgreet)
    exact ⟨p', hturn⟩
  · obtain ⟨keys, answer, next, -, hnext, -, -, hshows⟩ :=
      htake "GREET" _ { label := "GREET-1S", next := "GREET-1" } hroot List.mem_cons_self
    obtain rfl := Option.some.inj (hbread.symm.trans hnext)
    have hcalm : p.world.Calm ["GREET-1", "GREET-1_1"] := by
      rw [hworld]
      exact ⟨by simp [hask, hbun], by simp⟩
    obtain ⟨hturn, -⟩ := hshows p ⟨"GREET-1", []⟩ p.world p.scene hp rfl rfl hcalm
    obtain ⟨p', hturn⟩ := hturn (.inr rfl)
    refine ⟨p', ?_⟩
    rw [hturn, hworld]
    simp [DialogueNode.readingOrder, TextBook.currentKey_of_counter_none, hask, hbun]
  · obtain ⟨keys, answer, next, -, hnext, -, -, hshows⟩ :=
      htake "GREET" _ { label := "GREET-2S", next := "GREET-2" } hroot
        (List.mem_cons_of_mem _ List.mem_cons_self)
    obtain rfl := Option.some.inj (hhello.symm.trans hnext)
    have hcalm : p.world.Calm ["GREET-2", "GREET-2-0"] := by
      rw [hworld]
      exact ⟨by simp [hsay, hdistinct, Bakery.countable], by simp⟩
    obtain ⟨hturn, -⟩ := hshows p ⟨"GREET-2", []⟩ p.world p.scene hp rfl rfl hcalm
    obtain ⟨p', hturn⟩ := hturn (.inr rfl)
    refine ⟨p', ?_⟩
    rw [hturn, hworld]
    simp [DialogueNode.readingOrder, TextBook.currentKey_of_counter_none, hsay, hcurrent]

namespace Audience

def prince : Tag := ⟨"prince", ⟨.plain, "prince", none, .unset⟩, by decide, by rfl⟩
def requiredPrince : Tag := ⟨"?prince", ⟨.required, "prince", none, .unset⟩, by decide, by rfl⟩

/-- The prince's greeting and the player's yes have two lines each. -/
def source : String :=
  "== HALL [HALL, prince]\n++ ()-[?prince]->() #TALK Hello.</>Well met.\n" ++
  "-- [Yes] Yes.</>Gladly.\n--- Good."

/-- The texts of the greeting. -/
def book : TextBook :=
  { lines := .ofList [("TALK", ["Hello.", "Well met."]), ("TALK-1", ["Yes.", "Gladly."]),
      ("TALK-1-0", ["Good."]), ("TALK-1S", ["Yes"])]
    ranges := .ofList [("TALK", [⟨0, 2⟩]), ("TALK-1", [⟨0, 2⟩])]
    routes := .ofList
      [("TALK", { text := ["TALK"], choices := [{ label := "TALK-1S", next := "TALK-1" }] }),
        ("TALK-1", { text := ["TALK-1-0", "TALK-1"] })] }

/-- A hall with a prince to be greeted. -/
def tape : Tape :=
  { label := "HALL", world := ⟨[⟨"HALL", .singleton prince⟩]⟩,
    rules := [{ target := requiredPrince, text := some "TALK" }], text := book }

/-- Where the tape starts. -/
def opening : Playthrough := { tape, current := { world := tape.world, scene := "HALL" } }

/-- The prince has spoken and waits for a yes. -/
def greeted : Playthrough :=
  { tape, current := { world := tape.world, scene := "HALL", node := some "TALK" },
    past := [opening.current] }

/-- The prince has answered. -/
def answered : Playthrough :=
  { tape, current := { world := tape.world, scene := "HALL" },
    past := [greeted.current, opening.current] }

/-- The action that starts the talk. -/
def talk : Action := ⟨"Poke the prince. ", some "TALK", [.assertTagIn "prince" "HALL"]⟩

/-- The source compiles to the tape of the greeting. -/
theorem exists_compiled : ∃ script, compile source = .ok script ∧ script.tapes = [tape] ∧
    "TALK" ∈ script.dialogues := by
  have hfacts : (compile source).toOption.map (fun s => (s.tapes, s.dialogues)) =
      some ([tape], ["TALK"]) := by decide +kernel
  obtain ⟨script, hcompile, hscript⟩ := exists_script_of_map hfacts
  obtain ⟨htapes, hdialogues⟩ := Prod.mk.inj hscript
  exact ⟨script, hcompile, htapes, hdialogues ▸ List.mem_cons_self⟩

end Audience

/-- Of the prince's greeting and of the player's yes, two lines each, only the first is shown. -/
theorem audience_cut_short :
    (∃ script, compile Audience.source = .ok script ∧ script.tapes = [Audience.tape] ∧
      "TALK" ∈ script.dialogues) ∧
    Playthrough.start Audience.tape none = .ok Audience.opening ∧
    Audience.opening.actions = .ok ⟨[Audience.talk]⟩ ∧
    Audience.opening.world.counter? "TALK" = none ∧
    Audience.tape.text.linesOf "TALK" = ["Hello.", "Well met."] ∧
    Audience.opening.perform Audience.talk = (Audience.greeted, .ok ["TALK"]) ∧
    ["TALK"] ≠ (List.range 2).map (lineKey "TALK") ∧
    Audience.greeted.choices = [(0, ⟨"TALK-1", []⟩)] ∧
    Audience.tape.text.linesOf "TALK-1" = ["Yes.", "Gladly."] ∧
    Audience.greeted.take ⟨"TALK-1", []⟩ = (Audience.answered, .ok ["TALK-1", "TALK-1-0"]) ∧
    ["TALK-1", "TALK-1-0"] ≠ (List.range 2).map (lineKey "TALK-1") ++ ["TALK-1-0"] :=
  ⟨Audience.exists_compiled, by rfl, by rfl, by rfl, by rfl, by rfl, by decide, by rfl, by rfl,
    by rfl, by decide⟩

end Script

end StoryTape
