import StoryTape.CommandLine.Compiler
import StoryTape.Proofs.Codecs
import StoryTape.Proofs.WrittenFiles

/-!
# The files of a script

The compiler writes the artifact of a tape to a file named after its label. The label is put into
the path as it is, slashes and all, so two tapes can have one file, where the later one stands, and
a label that ends in a slash leaves the file without a name before its extension.
-/

namespace StoryTape.Artifact

open Text CommandLine

/-! ### Names of files -/

/-- No extension has a slash or a point. -/
theorem notMem_extension {f : Format} {c : Char} (hc : c = '/' ∨ c = '.') :
    c ∉ f.extension.toList := by
  rcases hc with rfl | rfl <;> cases f <;> decide

/-- A file named after its format is of that format, if there is a name before the extension. -/
theorem formatOf?_eq_some {path : String} (front : List Char) {c : Char} {f : Format}
    (hc : c ≠ '/') (hpath : path.toList = front ++ c :: '.' :: f.extension.toList) :
    formatOf? path = some f := by
  have hslash : '/' ∉ c :: '.' :: f.extension.toList := by
    simp [Ne.symm hc, notMem_extension (f := f) (.inl rfl)]
  have hfold : fold f.extension.toList = f.extension.toList := by cases f <;> decide
  obtain ⟨before, hname⟩ := exists_getLast?_splitChar front hslash
  have hcut : splitLast ['.'] (before ++ c :: '.' :: f.extension.toList) =
      some (before ++ [c], f.extension.toList) := by
    rw [List.append_cons before c]
    exact splitLast_append (before ++ [c]) (notMem_extension (.inr rfl))
  have hextension : extension? path = some f.extension.toList := by
    have hkept : (before ++ [c]).isEmpty = false := by
      cases before <;> rfl
    simp only [extension?, hpath, hname, Option.getD_some, hcut, hkept, hfold]
    rfl
  cases f with
  | json => simp only [formatOf?, hextension, List.find?_cons, beq_self_eq_true]
  | ron =>
    have hjson :
        (some Format.ron.extension.toList == some Format.json.extension.toList) = false := by
      decide
    simp only [formatOf?, hextension, List.find?_cons, hjson, beq_self_eq_true]

/-- A file with nothing before the extension is of no format. -/
theorem formatOf?_eq_none {path : String} (front : List Char) {f : Format}
    (hpath : path.toList = front ++ '/' :: '.' :: f.extension.toList) : formatOf? path = none := by
  have hslash : '/' ∉ '.' :: f.extension.toList := by
    simp [notMem_extension (f := f) (.inl rfl)]
  have hcut : splitLast ['.'] ('.' :: f.extension.toList) = some ([], f.extension.toList) :=
    splitLast_append [] (notMem_extension (.inr rfl))
  have hextension : extension? path = none := by
    simp only [extension?, hpath, getLast?_splitChar front hslash, Option.getD_some, hcut]
    rfl
  simp only [formatOf?, hextension]
  rfl

/-- A path in a folder ends in its name, which stands alone or behind a slash. -/
theorem toList_joinPath (folder name : String) :
    (joinPath folder name).toList = name.toList ∨
      ∃ front, (joinPath folder name).toList = front ++ '/' :: name.toList := by
  rw [joinPath]
  split
  · exact .inl rfl
  split
  · next hfolder =>
    rcases Bool.or_eq_true_iff.mp hfolder with hempty | hslash
    · rw [String.isEmpty_iff.mp hempty]
      exact .inl rfl
    · obtain ⟨front, hfront⟩ := List.isSuffixOf_iff_suffix.mp hslash
      refine .inr ⟨front, ?_⟩
      rw [String.toList_append, ← hfront, List.append_assoc]
      rfl
  · refine .inr ⟨folder.toList, ?_⟩
    rw [String.toList_append, String.toList_append, List.append_assoc]
    rfl

/-- The name of an artifact: the label and the extension. -/
theorem toList_artifactName (f : Format) (t : Tape) :
    (t.label ++ "." ++ f.extension).toList = t.label.toList ++ '.' :: f.extension.toList := by
  rw [String.toList_append, String.toList_append, List.append_assoc]
  rfl

/-- The path of an artifact ends in the label and the extension. -/
theorem toList_artifactPath (folder : String) (f : Format) (t : Tape) :
    ∃ front, (artifactPath folder f t).toList =
      front ++ (t.label.toList ++ '.' :: f.extension.toList) := by
  rw [artifactPath, ← toList_artifactName]
  rcases toList_joinPath folder (t.label ++ "." ++ f.extension) with hpath | ⟨front, hpath⟩
  · exact ⟨[], hpath⟩
  · exact ⟨front ++ ['/'], by rw [hpath, List.append_cons]⟩

/-- An artifact has its format where it is written, unless the label ends in a slash, which leaves
no name before the extension. -/
theorem formatOf?_artifactPath (folder : String) (f : Format) {t : Tape} (hlabel : t.label ≠ "") :
    formatOf? (artifactPath folder f t) =
      if t.label.toList.getLast? = some '/' then none else some f := by
  obtain ⟨front, hpath⟩ := toList_artifactPath folder f t
  have hne : t.label.toList ≠ [] := fun hnil => hlabel (String.toList_eq_nil_iff.mp hnil)
  obtain ⟨before, c, hlast⟩ := (List.eq_nil_or_concat t.label.toList).resolve_left hne
  rw [List.concat_eq_append] at hlast
  rw [hlast, List.append_assoc, ← List.append_assoc, List.singleton_append] at hpath
  rw [hlast, List.getLast?_concat]
  by_cases hc : c = '/'
  · subst hc
    rw [if_pos rfl]
    exact formatOf?_eq_none (front ++ before) hpath
  · rw [if_neg (fun h => hc (Option.some.inj h))]
    exact formatOf?_eq_some (front ++ before) hc hpath

end StoryTape.Artifact

namespace StoryTape.CommandLine

open Text Artifact

/-! ### The files of a script -/

section Compile

variable {codecs : Codecs} {c : Script.CompiledScript} {folder : String} {f : Format}
  {tags : Option String} {d : Disk} {o : Outcome}

/-- The steps of a compilation after its folder is made. -/
def writingSteps (codecs : Codecs) (c : Script.CompiledScript) (folder : String)
    (f : Format) (tags : Option String) : List Step :=
  c.tapes.flatMap (artifactSteps codecs folder f) ++
    tags.toList.map fun file => .writeFile file (tagListText codecs c.index)

/-- The artifacts of other tapes leave that of a tape alone: none has the same place. -/
def Disk.Spares (d : Disk) (folder : String) (f : Format) (t : Tape) (others : List Tape) : Prop :=
  ∀ t' ∈ others, d.target? (artifactPath folder f t') ≠ d.target? (artifactPath folder f t)

/-- Where tapes have different labels, a later tape has another label. -/
theorem label_ne_of_later {tapes before after : List Tape} {t t' : Tape}
    (hdistinct : (tapes.map Tape.label).Nodup) (htapes : tapes = before ++ t :: after)
    (ht' : t' ∈ after) : t'.label ≠ t.label := by
  intro heq
  rw [htapes, List.map_append, List.nodup_append, List.map_cons, List.nodup_cons] at hdistinct
  exact hdistinct.2.1.1 (heq ▸ List.mem_map_of_mem ht')

/-- The artifact of a tape is all that its steps write. -/
theorem writeFile_mem_artifactSteps_iff {t : Tape} {path text : String} :
    .writeFile path text ∈ artifactSteps codecs folder f t ↔
      path = artifactPath folder f t ∧ text = codecs.encode f t := by
  simp [artifactSteps]

/-- What a compilation writes: the artifacts of the tapes and the tag identifiers. -/
theorem writeFile_mem_writingSteps_iff {path text : String} :
    .writeFile path text ∈ writingSteps codecs c folder f tags ↔
      (∃ t ∈ c.tapes, path = artifactPath folder f t ∧ text = codecs.encode f t) ∨
        path ∈ tags ∧ text = tagListText codecs c.index := by
  rw [writingSteps, List.mem_append, List.mem_flatMap, List.mem_map]
  simp only [writeFile_mem_artifactSteps_iff, Option.mem_toList, Step.writeFile.injEq]
  refine or_congr_right ⟨?_, ?_⟩
  · rintro ⟨file, hfile, rfl, rfl⟩
    exact ⟨hfile, rfl⟩
  · rintro ⟨hpath, rfl⟩
    exact ⟨path, hpath, rfl, rfl⟩

/-- No folder is made after the first step. -/
theorem keepsFolders_writingSteps :
    ∀ step ∈ writingSteps codecs c folder f tags, step.KeepsFolders := by
  intro step hstep
  rcases List.mem_append.mp hstep with hstep | hstep
  · obtain ⟨t, -, hstep⟩ := List.mem_flatMap.mp hstep
    rw [artifactSteps, List.mem_cons, List.mem_singleton] at hstep
    rcases hstep with rfl | rfl <;> trivial
  · obtain ⟨file, -, rfl⟩ := List.mem_map.mp hstep
    trivial

/-- A compilation ends well exactly if its folder can be made and then all files be written. -/
theorem run_compilePlan_done_iff {d' : Disk} :
    ((compilePlan codecs c folder f tags).run d).ending = .done ∧
        ((compilePlan codecs c folder f tags).run d).disk = d' ↔
      ∃ made, d.makeFolders? folder = some made ∧
        (writingSteps codecs c folder f tags).foldlM Disk.take? made = some d' := by
  rw [Plan.run, compilePlan, List.cons_append, ← Disk.foldlM_take?_eq_some_iff, List.foldlM_cons]
  exact Option.bind_eq_some_iff

/-- A compilation ends well exactly if its folder can be made and every file then has a place. -/
theorem run_compilePlan_done (hrun : (compilePlan codecs c folder f tags).run d = o) :
    o.ending = .done ↔ ∃ made, d.makeFolders? folder = some made ∧
      (∀ t ∈ c.tapes, ∃ place, made.target? (artifactPath folder f t) = some place) ∧
      ∀ path ∈ tags, ∃ place, made.target? path = some place := by
  subst hrun
  have hplaces (made : Disk) :
      (∃ d', (writingSteps codecs c folder f tags).foldlM Disk.take? made = some d') ↔
        (∀ t ∈ c.tapes, ∃ place, made.target? (artifactPath folder f t) = some place) ∧
        ∀ path ∈ tags, ∃ place, made.target? path = some place := by
    rw [Disk.exists_foldlM_take?_iff keepsFolders_writingSteps]
    simp only [writeFile_mem_writingSteps_iff]
    constructor
    · intro h
      exact ⟨fun t ht => h _ _ (.inl ⟨t, ht, rfl, rfl⟩),
        fun path hpath => h _ _ (.inr ⟨hpath, rfl⟩)⟩
    · rintro ⟨htapes, htags⟩ path text (⟨t, ht, rfl, -⟩ | ⟨hpath, -⟩)
      · exact htapes t ht
      · exact htags path hpath
  constructor
  · intro hdone
    obtain ⟨made, hmade, hwritten⟩ := run_compilePlan_done_iff.mp ⟨hdone, rfl⟩
    exact ⟨made, hmade, (hplaces made).mp ⟨_, hwritten⟩⟩
  · rintro ⟨made, hmade, hpaths⟩
    obtain ⟨d', hwritten⟩ := (hplaces made).mpr hpaths
    exact (run_compilePlan_done_iff.mpr ⟨made, hmade, hwritten⟩).1

section Done

variable (hrun : (compilePlan codecs c folder f tags).run d = o) (hdone : o.ending = .done)

include hrun hdone

/-- What a compilation that ended well has done after its folder was made. -/
theorem exists_made_of_done : ∃ made, d.makeFolders? folder = some made ∧
    (writingSteps codecs c folder f tags).foldlM Disk.take? made = some o.disk ∧
      made.SameFolders o.disk := by
  subst hrun
  obtain ⟨made, hmade, hwritten⟩ := run_compilePlan_done_iff.mp ⟨hdone, rfl⟩
  exact ⟨made, hmade, hwritten, Disk.sameFolders_foldlM keepsFolders_writingSteps hwritten⟩

/-- Every artifact has a place after a compilation that ended well. -/
theorem exists_target_artifactPath {t : Tape} (ht : t ∈ c.tapes) :
    ∃ place, o.disk.target? (artifactPath folder f t) = some place := by
  obtain ⟨made, -, hwritten, hsame⟩ := exists_made_of_done hrun hdone
  have hmem : .writeFile (artifactPath folder f t) (codecs.encode f t) ∈
      writingSteps codecs c folder f tags :=
    writeFile_mem_writingSteps_iff.mpr (.inl ⟨t, ht, rfl, rfl⟩)
  obtain ⟨place, hplace⟩ := (Disk.exists_foldlM_take?_iff keepsFolders_writingSteps).mp
    ⟨o.disk, hwritten⟩ _ _ hmem
  exact ⟨place, (hsame.target? _).trans hplace⟩

section Later

variable {before after : List Tape} {t : Tape} (htapes : c.tapes = before ++ t :: after)
  (htags : ∀ file ∈ tags, o.disk.target? file ≠ o.disk.target? (artifactPath folder f t))

include htapes htags

/-- The artifact of a tape holds its text if nothing written later has the same place. -/
theorem read_artifactPath (hafter : o.disk.Spares folder f t after) :
    o.disk.read (artifactPath folder f t) = .text (codecs.encode f t) := by
  obtain ⟨made, -, hwritten, hsame⟩ := exists_made_of_done hrun hdone
  have hsteps : writingSteps codecs c folder f tags =
      before.flatMap (artifactSteps codecs folder f) ++
        .writeFile (artifactPath folder f t) (codecs.encode f t) ::
          (.say (t.label ++ " -> " ++ artifactPath folder f t) ::
            writingSteps codecs { c with tapes := after } folder f tags) := by
    simp [writingSteps, htapes, artifactSteps]
  have hkeeps : ∀ step ∈ writingSteps codecs c folder f tags, step.KeepsFolders :=
    keepsFolders_writingSteps
  rw [hsteps] at hwritten hkeeps
  refine Disk.read_foldlM_of_last hkeeps (fun path' text' hmem => ?_) hwritten
  rw [← hsame.target?, ← hsame.target?]
  rcases List.mem_cons.mp hmem with hmem | hmem
  · cases hmem
  rcases writeFile_mem_writingSteps_iff.mp hmem with ⟨t', ht', rfl, -⟩ | ⟨hfile, -⟩
  · exact hafter t' ht'
  · exact htags path' hfile

/-- Where a later tape has the same place, the artifact of a tape holds the text of a later one. -/
theorem exists_later_read (hafter : ¬ o.disk.Spares folder f t after) :
    ∃ last ∈ after, o.disk.read (artifactPath folder f t) = .text (codecs.encode f last) := by
  have hshares : ∃ t' ∈ after, o.disk.target? (artifactPath folder f t') =
      o.disk.target? (artifactPath folder f t) := by
    simpa [Disk.Spares] using hafter
  obtain ⟨front, last, back, rfl, hlast, hback⟩ := exists_last_of_exists hshares
  have hlasts : c.tapes = (before ++ t :: front) ++ last :: back := by
    rw [htapes, List.append_assoc, List.cons_append]
  have hread := read_artifactPath hrun hdone hlasts (fun file hfile => hlast ▸ htags file hfile)
    (fun t' ht' => hlast ▸ hback t' ht')
  obtain ⟨place, hplace⟩ := exists_target_artifactPath hrun hdone (t := t) (by simp [htapes])
  rw [Disk.read_eq_of_target (hlast.trans hplace), ← Disk.read_eq_of_target hplace] at hread
  exact ⟨last, by simp, hread⟩

/-- **The artifact of a tape is the file that is written for it, and is read and loaded as that
tape, exactly if no later tape has the same place.** -/
theorem artifactPath_spared_iff (hcodec : (codecs.codec f).Faithful)
    (hadmits : ∀ t ∈ c.tapes, tapeShape.Admits (ofTape t))
    (hdistinct : (c.tapes.map Tape.label).Nodup) :
    (o.disk.read (artifactPath folder f t) = .text (codecs.encode f t) ↔
      o.disk.Spares folder f t after) ∧
    (formatOf? (artifactPath folder f t) = some f →
      (codecs.load (artifactPath folder f t) (o.disk.read (artifactPath folder f t)) = .ok [t] ↔
        o.disk.Spares folder f t after)) := by
  have ht : t ∈ c.tapes := by simp [htapes]
  by_cases hafter : o.disk.Spares folder f t after
  · have hread := read_artifactPath hrun hdone htapes htags hafter
    exact ⟨iff_of_true hread hafter, fun hformat =>
      iff_of_true (hread ▸ Codecs.load_encode hcodec hformat (hadmits t ht)) hafter⟩
  · obtain ⟨last, hlast, hread⟩ := exists_later_read hrun hdone htapes htags hafter
    have hadmitted := hadmits last (by simp [htapes, hlast])
    have hne : last ≠ t := fun heq =>
      label_ne_of_later hdistinct htapes hlast (congrArg Tape.label heq)
    refine ⟨iff_of_false (fun heq => ?_) hafter, fun hformat => iff_of_false (fun heq => ?_) hafter⟩
    · rw [hread] at heq
      exact hne (Codecs.encode_inj hcodec hadmitted (hadmits t ht) (FileContent.text.inj heq))
    · rw [hread, Codecs.load_encode hcodec hformat hadmitted] at heq
      exact hne (List.singleton_inj.mp (Except.ok.inj heq))

end Later

/-- Tapes whose labels have no slash and differ have their artifacts in different places. -/
theorem target_artifactPath_ne {t t' : Tape} (ht : t ∈ c.tapes) (ht' : t' ∈ c.tapes)
    (hslash : '/' ∉ t.label.toList) (hslash' : '/' ∉ t'.label.toList) (hne : t.label ≠ t'.label) :
    o.disk.target? (artifactPath folder f t) ≠ o.disk.target? (artifactPath folder f t') := by
  have hnamed {t : Tape} (ht : t ∈ c.tapes) (hslash : '/' ∉ t.label.toList) :
      ∃ place, o.disk.target? (artifactPath folder f t) = some place ∧
        place.getLast? = some (t.label ++ "." ++ f.extension) := by
    obtain ⟨place, hplace⟩ := exists_target_artifactPath hrun hdone ht
    have hpath := toList_joinPath folder (t.label ++ "." ++ f.extension)
    rw [toList_artifactName] at hpath
    -- The extension ends the name, so the name is not a point or two.
    have hlast : (t.label.toList ++ '.' :: f.extension.toList).getLast? ≠ some '.' := by
      cases f <;> simp [Format.extension]
    have hnone : '/' ∉ t.label.toList ++ '.' :: f.extension.toList := by
      simp [hslash, notMem_extension (f := f) (.inl rfl)]
    have hsome : t.label.toList ++ '.' :: f.extension.toList ≠ [] :=
      List.append_ne_nil_of_right_ne_nil _ (List.cons_ne_nil _ _)
    have hnamed := Disk.getLast?_target hsome (fun h => hlast (congrArg List.getLast? h))
      (fun h => hlast (congrArg List.getLast? h)) hnone hpath hplace
    rw [← toList_artifactName, String.ofList_toList] at hnamed
    exact ⟨place, hplace, hnamed⟩
  obtain ⟨place, hplace, hlast⟩ := hnamed ht hslash
  obtain ⟨place', hplace', hlast'⟩ := hnamed ht' hslash'
  rw [hplace, hplace']
  rintro ⟨⟩
  refine hne (String.toList_inj.mp ?_)
  have hsame := congrArg String.toList (Option.some.inj (hlast.symm.trans hlast'))
  rw [toList_artifactName, toList_artifactName] at hsame
  exact List.append_cancel_right hsame

end Done

end Compile

end StoryTape.CommandLine
