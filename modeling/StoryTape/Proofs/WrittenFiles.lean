import StoryTape.CommandLine.Plan
import StoryTape.Proofs.Texts

/-!
# What a plan leaves on a disk

A file is written into a folder that is there and makes none, so the place that a path leads to is
the same before and after. What a file holds at the end is therefore what was last written to its
place, under whatever path.
-/

namespace StoryTape.CommandLine

open Text

/-- Where a file is, or can be written. -/
def Place.target? : Place → Option (List String)
  | .file path _ | .free path => some path
  | .folder _ | .astray | .blocked => none

namespace Disk

/-! ### Targets -/

/-- Where the file of a path is, or can be written. -/
def target? (d : Disk) (path : String) : Option (List String) := (d.place path).target?

/-- Two disks have the same folders, and the same one to work in. -/
structure SameFolders (d d' : Disk) : Prop where
  folders : d'.folders = d.folders
  here : d'.here = d.here

variable {d d' d'' : Disk} {path path' text : String} {place place' : List String}

/-- A disk has its own folders. -/
theorem SameFolders.refl (d : Disk) : SameFolders d d := ⟨rfl, rfl⟩

/-- Folders that stay the same twice stay the same. -/
theorem SameFolders.trans (h : SameFolders d d') (h' : SameFolders d' d'') :
    SameFolders d d'' :=
  ⟨h'.folders.trans h.folders, h'.here.trans h.here⟩

/-- The same names lead to the same target where the folders are the same. -/
theorem SameFolders.target?_walk (h : SameFolders d d') (folder names : List String) :
    (d'.walk folder names).target? = (d.walk folder names).target? := by
  induction names generalizing folder with
  | nil => rfl
  | cons name names ih =>
    have hfolder (path : List String) : d'.hasFolder path = d.hasFolder path := by
      rw [hasFolder, hasFolder, h.folders]
    simp only [walk, hfolder]
    split
    · exact ih folder
    split
    · exact ih folder.dropLast
    split
    · rfl
    split
    · exact ih _
    -- The last name of a path is that of its target, whether there is a file or not.
    · cases d'.files.lookup (folder ++ [name]) <;> cases d.files.lookup (folder ++ [name]) <;>
        cases names.isEmpty <;> rfl

/-- A path has the same target where the folders are the same. -/
theorem SameFolders.target? (h : SameFolders d d') (path : String) :
    d'.target? path = d.target? path := by
  have hstart : d'.startOf path = d.startOf path := by
    rw [startOf, startOf, h.here]
  rw [Disk.target?, Disk.target?, place, place, hstart]
  split
  · rfl
  split
  · exact h.target?_walk _ _
  · rfl

/-- A target is named by the last name that leads to it. -/
theorem getLast?_target_walk {folder names : List String} {name : String} (hname : name ≠ "")
    (hpoint : name ≠ ".") (hpoints : name ≠ "..")
    (h : (d.walk folder (names ++ [name])).target? = some place) :
    place.getLast? = some name := by
  induction names generalizing folder with
  | nil =>
    rw [List.nil_append, walk, if_neg (not_or_intro hname hpoint), if_neg hpoints] at h
    split at h
    · cases h
    dsimp only at h
    split at h
    · cases h
    have hplace : folder ++ [name] = place := by
      cases hfile : d.files.lookup (folder ++ [name]) <;>
        simpa [hfile, Place.target?] using h
    rw [← hplace, List.getLast?_concat]
  | cons first names ih =>
    rw [List.cons_append, walk] at h
    split at h
    · exact ih h
    split at h
    · exact ih h
    split at h
    · cases h
    dsimp only at h
    split at h
    · exact ih h
    -- A file or a free name on the way is not the end of the path.
    · cases hfile : d.files.lookup (folder ++ [first]) <;>
        simp [hfile, Place.target?] at h

/-- A target is named by what follows the last slash of its path. -/
theorem getLast?_target {name : List Char} (hname : name ≠ []) (hpoint : name ≠ ['.'])
    (hpoints : name ≠ ['.', '.']) (hslash : '/' ∉ name)
    (hpath : path.toList = name ∨ ∃ front, path.toList = front ++ '/' :: name)
    (h : d.target? path = some place) : place.getLast? = some (String.ofList name) := by
  obtain ⟨names, hnames⟩ : ∃ names, pathNames path = names ++ [String.ofList name] := by
    rw [pathNames]
    rcases hpath with hpath | ⟨front, hpath⟩
    · exact ⟨[], by rw [hpath, splitChar_eq_singleton hslash]; rfl⟩
    · refine ⟨(splitChar '/' front).map String.ofList, ?_⟩
      rw [hpath, splitChar_append_cons, splitChar_eq_singleton hslash, List.map_append]
      rfl
  have hne {text : String} (h : name ≠ text.toList) : String.ofList name ≠ text := by
    rintro rfl
    exact h String.toList_ofList.symm
  rw [target?, Disk.place] at h
  split at h
  · cases h
  split at h
  · rw [hnames] at h
    exact getLast?_target_walk (hne hname) (hne hpoint) (hne hpoints) h
  · cases h

/-- What is at a place where a file can be. -/
def contentAt (d : Disk) (place : List String) : Place :=
  match d.files.lookup place with
  | some content => .file place content
  | none => .free place

/-- Names that lead to a target lead to the file that is there, if any. -/
theorem walk_eq_contentAt {folder names : List String}
    (h : (d.walk folder names).target? = some place) :
    d.walk folder names = d.contentAt place := by
  induction names generalizing folder with
  | nil => cases h
  | cons name names ih =>
    rw [walk] at h ⊢
    split at h
    · next hstay => rw [if_pos hstay, ih h]
    next hstay =>
    rw [if_neg hstay]
    split at h
    · next hup => rw [if_pos hup, ih h]
    next hup =>
    rw [if_neg hup]
    split at h
    · cases h
    next hlong =>
    rw [if_neg hlong]
    dsimp only at h ⊢
    split at h
    · next hfolder => rw [if_pos hfolder, ih h]
    next hfolder =>
    rw [if_neg hfolder]
    cases hfile : d.files.lookup (folder ++ [name]) <;> cases hlast : names.isEmpty <;>
      simp only [hfile, hlast, if_true, Bool.false_eq_true, if_false, Place.target?,
        Option.some.injEq, reduceCtorEq] at h ⊢ <;> subst h <;> simp only [contentAt, hfile]

/-- A path that has a target leads to the file that is there, if any. -/
theorem place_eq_contentAt (h : d.target? path = some place) :
    d.place path = d.contentAt place := by
  rw [Disk.target?, Disk.place] at h
  rw [Disk.place]
  split at h
  · cases h
  next hpath =>
  rw [if_neg hpath]
  split at h
  · next htakes => rw [if_pos htakes, walk_eq_contentAt h]
  · cases h

/-- What is read at a path is what is stored at its target. -/
theorem read_eq_of_target (h : d.target? path = some place) :
    d.read path = (d.files.lookup place).getD .missing := by
  rw [read, place_eq_contentAt h, contentAt]
  cases d.files.lookup place <;> rfl

/-! ### Writing a file -/

/-- What is stored when the files are written over at one place. -/
theorem lookup_overwrite (files : List (List String × FileContent)) (place place' : List String)
    (content : FileContent) :
    (files.map fun f => if f.1 = place then (place, content) else f).lookup place' =
      if place' = place then (files.lookup place').map fun _ => content
      else files.lookup place' := by
  induction files with
  | nil => simp
  | cons f files ih =>
    rw [List.map_cons, List.lookup_cons, List.lookup_cons, ih]
    by_cases hf : f.1 = place
    · rw [if_pos hf]
      by_cases hplace : place' = place
      · simp [hplace, hf]
      · have hother : (place' == place) = false := beq_eq_false_iff_ne.mpr hplace
        simp only [hf, hother, if_neg hplace]
    · rw [if_neg hf]
      cases hfirst : place' == f.1 with
      | false => rfl
      | true =>
        have hplace : ¬ place' = place := fun h => hf ((beq_iff_eq.mp hfirst).symm.trans h)
        simp only [if_neg hplace]

/-- What is stored when a file is put after the others. -/
theorem lookup_append_file (files : List (List String × FileContent)) (place place' : List String)
    (content : FileContent) (h : files.lookup place = none) :
    (files ++ [(place, content)]).lookup place' =
      if place' = place then some content else files.lookup place' := by
  rw [List.lookup_append]
  by_cases hplace : place' = place
  · rw [if_pos hplace, hplace, h]
    simp
  · have hother : (place' == place) = false := beq_eq_false_iff_ne.mpr hplace
    rw [if_neg hplace, List.lookup_cons, hother]
    simp

/-- A file is written at the target of its path, and no other file changes. -/
theorem exists_write? (h : d.target? path = some place) (text : String) :
    ∃ d', d.write? path text = some d' ∧ SameFolders d d' ∧ ∀ place',
      d'.files.lookup place' = if place' = place then some (.text text)
        else d.files.lookup place' := by
  rw [write?, place_eq_contentAt h, contentAt]
  cases hfile : d.files.lookup place with
  | none => exact ⟨_, rfl, ⟨rfl, rfl⟩, fun _ => lookup_append_file _ _ _ _ hfile⟩
  | some content =>
    refine ⟨_, rfl, ⟨rfl, rfl⟩, fun place' => (lookup_overwrite _ _ _ _).trans ?_⟩
    split
    · next hplace => rw [hplace, hfile, Option.map_some]
    · rfl

/-- Only a path that has a target can be written to. -/
theorem exists_target_of_write? (h : d.write? path text = some d') :
    ∃ place, d.target? path = some place := by
  rw [write?] at h
  rw [Disk.target?]
  split at h
  · next place content hplace => exact ⟨place, congrArg Place.target? hplace⟩
  · next place hplace => exact ⟨place, congrArg Place.target? hplace⟩
  · cases h

end Disk

/-! ### Steps -/

/-- The step makes no folder. -/
def Step.KeepsFolders : Step → Prop
  | .makeFolders _ => False
  | .writeFile _ _ | .say _ => True

namespace Disk

variable {d d' : Disk} {path text : String} {steps : List Step}

/-- A run ends well exactly if every step can be taken, one on the disk that the last one leaves. -/
theorem foldlM_take?_eq_some_iff :
    steps.foldlM take? d = some d' ↔
      (d.follow .done steps).ending = .done ∧ (d.follow .done steps).disk = d' := by
  induction steps generalizing d with
  | nil => simp [follow, eq_comm]
  | cons step steps ih =>
    rw [List.foldlM_cons, follow]
    cases hstep : d.take? step with
    | none => simp
    | some next => exact ih

/-- A step that makes no folder leaves the folders as they are. -/
theorem sameFolders_take? {step : Step} (hstep : step.KeepsFolders) (h : d.take? step = some d') :
    SameFolders d d' := by
  cases step with
  | makeFolders path => exact hstep.elim
  | writeFile path text =>
    obtain ⟨place, htarget⟩ := exists_target_of_write? h
    obtain ⟨d'', hwrite, hsame, -⟩ := exists_write? htarget text
    cases hwrite.symm.trans h
    exact hsame
  | say line =>
    cases h
    exact .refl d

/-- Steps that make no folder leave the folders as they are. -/
theorem sameFolders_foldlM (hsteps : ∀ step ∈ steps, step.KeepsFolders)
    (h : steps.foldlM take? d = some d') : SameFolders d d' := by
  induction steps generalizing d with
  | nil =>
    cases h
    exact .refl _
  | cons step steps ih =>
    obtain ⟨hstep, hsteps⟩ := List.forall_mem_cons.mp hsteps
    obtain ⟨next, hnext, h⟩ := Option.bind_eq_some_iff.mp h
    exact (sameFolders_take? hstep hnext).trans (ih hsteps h)

/-- **Steps that make no folder can all be taken exactly if every file has a target.** -/
theorem exists_foldlM_take?_iff (hsteps : ∀ step ∈ steps, step.KeepsFolders) :
    (∃ d', steps.foldlM take? d = some d') ↔
      ∀ path text, .writeFile path text ∈ steps → ∃ place, d.target? path = some place := by
  induction steps generalizing d with
  | nil => simp
  | cons step steps ih =>
    obtain ⟨hstep, hsteps⟩ := List.forall_mem_cons.mp hsteps
    constructor
    · rintro ⟨d', h⟩ path text hmem
      obtain ⟨next, hnext, h⟩ := Option.bind_eq_some_iff.mp h
      rcases List.mem_cons.mp hmem with rfl | hmem
      · exact exists_target_of_write? hnext
      · obtain ⟨place, hplace⟩ := (ih hsteps).mp ⟨d', h⟩ path text hmem
        exact ⟨place, ((sameFolders_take? hstep hnext).target? path).symm.trans hplace⟩
    · intro h
      obtain ⟨next, hnext⟩ : ∃ next, d.take? step = some next := by
        cases step with
        | makeFolders path => exact hstep.elim
        | writeFile path text =>
          obtain ⟨place, hplace⟩ := h path text List.mem_cons_self
          obtain ⟨next, hnext, -⟩ := exists_write? hplace text
          exact ⟨next, hnext⟩
        | say line => exact ⟨d, rfl⟩
      have hsame := sameFolders_take? hstep hnext
      obtain ⟨d', h⟩ := (ih hsteps).mpr fun path text hmem => by
        obtain ⟨place, hplace⟩ := h path text (List.mem_cons_of_mem _ hmem)
        exact ⟨place, (hsame.target? path).trans hplace⟩
      refine ⟨d', ?_⟩
      rw [List.foldlM_cons, hnext]
      exact h

/-- Steps that write to other targets leave a file as it is. -/
theorem read_foldlM_of_other (hsteps : ∀ step ∈ steps, step.KeepsFolders) {place : List String}
    (htarget : d.target? path = some place)
    (hother : ∀ path' text', .writeFile path' text' ∈ steps → d.target? path' ≠ some place)
    (h : steps.foldlM take? d = some d') : d'.read path = d.read path := by
  induction steps generalizing d with
  | nil =>
    cases h
    rfl
  | cons step steps ih =>
    obtain ⟨hstep, hsteps⟩ := List.forall_mem_cons.mp hsteps
    obtain ⟨next, hnext, h⟩ := Option.bind_eq_some_iff.mp h
    have hsame := sameFolders_take? hstep hnext
    have htarget' := (hsame.target? path).trans htarget
    have hlater := ih hsteps htarget' (fun path' text' hmem => by
      rw [hsame.target?]
      exact hother path' text' (List.mem_cons_of_mem _ hmem)) h
    rw [hlater, read_eq_of_target htarget', read_eq_of_target htarget]
    cases step with
    | makeFolders path => exact hstep.elim
    | writeFile path' text' =>
      obtain ⟨place', hplace'⟩ := exists_target_of_write? hnext
      obtain ⟨d'', hwrite, -, hlookup⟩ := exists_write? hplace' text'
      cases hwrite.symm.trans hnext
      have hne : place ≠ place' := fun heq =>
        hother path' text' List.mem_cons_self (hplace'.trans (congrArg some heq.symm))
      rw [hlookup, if_neg hne]
    | say line =>
      cases hnext
      rfl

/-- **A file holds what was last written to its target.** -/
theorem read_foldlM_of_last {front back : List Step}
    (hsteps : ∀ step ∈ front ++ .writeFile path text :: back, step.KeepsFolders)
    (hlast : ∀ path' text', .writeFile path' text' ∈ back → d.target? path' ≠ d.target? path)
    (h : (front ++ .writeFile path text :: back).foldlM take? d = some d') :
    d'.read path = .text text := by
  rw [List.foldlM_append] at h
  obtain ⟨d₁, hfront, h⟩ := Option.bind_eq_some_iff.mp h
  obtain ⟨d₂, hwrite, hback⟩ := Option.bind_eq_some_iff.mp h
  obtain ⟨hkeeps, hsteps⟩ := List.forall_mem_append.mp hsteps
  obtain ⟨hstep, hsteps⟩ := List.forall_mem_cons.mp hsteps
  have hbefore := sameFolders_foldlM hkeeps hfront
  have hsame := hbefore.trans (sameFolders_take? hstep hwrite)
  obtain ⟨place, htarget⟩ := exists_target_of_write? hwrite
  obtain ⟨d'', hwrite', -, hlookup⟩ := exists_write? htarget text
  cases hwrite'.symm.trans hwrite
  have hplace := (hbefore.target? path).symm.trans htarget
  have htarget' := (hsame.target? path).trans hplace
  have hother : ∀ path' text', .writeFile path' text' ∈ back → d₂.target? path' ≠ some place := by
    intro path' text' hmem
    rw [hsame.target?]
    exact hplace ▸ hlast path' text' hmem
  rw [read_foldlM_of_other hsteps htarget' hother hback, read_eq_of_target htarget', hlookup,
    if_pos rfl, Option.getD_some]

end Disk

end StoryTape.CommandLine
