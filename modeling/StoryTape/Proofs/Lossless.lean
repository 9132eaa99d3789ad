import StoryTape.Proofs.ArtifactFiles
import StoryTape.Proofs.CompiledTapes
import StoryTape.Proofs.TapeLabels

/-!
# Artifacts lose nothing

The artifact of a compiled tape is read back as the very tape. On a disk it is found again where it
was written, unless its label makes it share its file with a later tape or leaves the file without a
name.
-/

namespace StoryTape

open Artifact CommandLine

/-- The tape is one of a compiled script that fits into memory, where a text has less than half as
many characters as a machine word can count. -/
def Script.CompiledInMemory (t : Tape) : Prop :=
  ∃ source script, 2 * source.length < Text.wordSize ∧ compile source = .ok script ∧
    t ∈ script.tapes

/-- The lines of every name can be counted. -/
theorem Script.CompiledInMemory.lineCount_lt {t : Tape} (ht : CompiledInMemory t) (name : String) :
    t.text.lineCount name < Text.wordSize := by
  obtain ⟨source, script, hsize, hcompile, ht⟩ := ht
  exact Nat.lt_of_le_of_lt (lineCount_le_of_compile hcompile ht name) hsize

/-- A compiled tape has the shape of a tape. -/
theorem Script.CompiledInMemory.admits {t : Tape} (ht : CompiledInMemory t) :
    tapeShape.Admits (ofTape t) := by
  have hfits := ht.lineCount_lt
  obtain ⟨source, script, hsize, hcompile, ht⟩ := ht
  have hcompiled : Compiled t := ⟨source, script, hcompile, ht⟩
  exact admits_ofTape hcompiled.ranged hfits

/-- The tapes of a script have different labels. -/
theorem Script.nodup_label_compile {source : String} {script : CompiledScript}
    (h : compile source = .ok script) : (script.tapes.map Tape.label).Nodup := by
  have hlower : ((script.tapes.map Tape.label).map Text.lowerText).Nodup := by
    rw [List.map_map]
    exact nodup_labels_compile h
  exact List.Nodup.of_map _ hlower

/-- **The artifact of a compiled tape loses nothing.** Written by a codec that reads data back as it
was, the text of the tape is read back as the very tape, a file that holds it is loaded as that tape
alone, and one that holds a list of compiled tapes as that list. The command line ends well exactly
if its folder can be made and every file has a place. Then the artifact of a tape has its format
unless the label ends in a slash, and it is read and loaded as that tape exactly if no later tape
has the same place, as none has where labels are without slashes. Only a file for the tag
identifiers may not be asked for in the same place. -/
theorem artifacts_lossless {codecs : Codecs} {f : Format} (hcodec : (codecs.codec f).Faithful)
    {source : String} (hsize : 2 * source.length < Text.wordSize) {script : Script.CompiledScript}
    (hcompile : Script.compile source = .ok script) :
    (∀ t ∈ script.tapes, codecs.decode? f (codecs.encode f t) = some t ∧
      ∀ path, formatOf? path = some f → codecs.load path (.text (codecs.encode f t)) = .ok [t]) ∧
    (∀ ts, ts ≠ [] → (∀ t ∈ ts, Script.CompiledInMemory t) → ∀ path, formatOf? path = some f →
      codecs.load path (.text (codecs.encodeAll f ts)) = .ok ts) ∧
    ∀ (file folder : String) (tags : Option String) (d : Disk) (o : Outcome),
      ((CompilerRequest.compile file folder f tags).plan codecs (.text source)).run d = o →
      (o.ending = .done ↔ ∃ made, d.makeFolders? folder = some made ∧
        (∀ t ∈ script.tapes, ∃ place, made.target? (artifactPath folder f t) = some place) ∧
        ∀ path ∈ tags, ∃ place, made.target? path = some place) ∧
      (o.ending = .done → ∀ before t after, script.tapes = before ++ t :: after →
        (∀ path ∈ tags, o.disk.target? path ≠ o.disk.target? (artifactPath folder f t)) →
        formatOf? (artifactPath folder f t) =
          (if t.label.toList.getLast? = some '/' then none else some f) ∧
        (o.disk.read (artifactPath folder f t) = .text (codecs.encode f t) ↔
          o.disk.Spares folder f t after) ∧
        (t.label.toList.getLast? ≠ some '/' →
          (codecs.load (artifactPath folder f t) (o.disk.read (artifactPath folder f t)) = .ok [t] ↔
            o.disk.Spares folder f t after)) ∧
        ((∀ t' ∈ t :: after, '/' ∉ t'.label.toList) →
          codecs.load (artifactPath folder f t) (o.disk.read (artifactPath folder f t)) =
            .ok [t])) := by
  have hmemory : ∀ t ∈ script.tapes, Script.CompiledInMemory t :=
    fun t ht => ⟨source, script, hsize, hcompile, ht⟩
  have hadmits : ∀ t ∈ script.tapes, tapeShape.Admits (ofTape t) :=
    fun t ht => (hmemory t ht).admits
  have hdistinct := Script.nodup_label_compile hcompile
  refine ⟨fun t ht => ⟨Codecs.decode?_encode hcodec (hadmits t ht),
    fun path hpath => Codecs.load_encode hcodec hpath (hadmits t ht)⟩,
    fun ts hne hts path hpath =>
      Codecs.load_encodeAll hcodec hpath hne fun t ht => (hts t ht).admits,
    fun file folder tags d o hrun => ?_⟩
  have hplan : (compilePlan codecs script folder f tags).run d = o := by
    simpa only [CompilerRequest.plan, withScript, hcompile] using hrun
  refine ⟨run_compilePlan_done hplan, fun hdone before t after htapes htags => ?_⟩
  have ht : t ∈ script.tapes := by simp [htapes]
  have hformat := formatOf?_artifactPath folder f (t := t)
    (Script.Compiled.label_ne ⟨source, script, hcompile, ht⟩)
  obtain ⟨hread, hload⟩ :=
    artifactPath_spared_iff hplan hdone htapes htags hcodec hadmits hdistinct
  refine ⟨hformat, hread, fun hlast => hload (by rw [hformat, if_neg hlast]), fun hslash => ?_⟩
  have hlast : t.label.toList.getLast? ≠ some '/' := fun hlast =>
    hslash t List.mem_cons_self (List.mem_of_getLast? hlast)
  refine (hload (by rw [hformat, if_neg hlast])).mpr fun t' ht' => ?_
  have hne : t'.label ≠ t.label := label_ne_of_later hdistinct htapes ht'
  exact target_artifactPath_ne hplan hdone (by simp [htapes, ht']) ht
    (hslash t' (List.mem_cons_of_mem t ht')) (hslash t List.mem_cons_self) hne

/-! ### A tape to look at

At the court the duke can be talked to. The talk has two lines, and the bow is a choice that is
paid, gives something and leads back to the talk. -/

namespace Court

def duke : Tag := ⟨"duke", ⟨.plain, "duke", none, .unset⟩, by decide, by rfl⟩
def ring : Tag := ⟨"ring", ⟨.plain, "ring", none, .unset⟩, by decide, by rfl⟩

/-- A court with a dialogue, a counted text and a rule. -/
def script : String :=
  "== COURT [HALL, duke]\n++ -\x7bduke\x7d[duke]->() #TALK Hm?</>Yes?\n" ++
  "-- \x7bduke\x7d [Bow] You bow.\n--> \x7bring\x7d TALK"

/-- The choice in the dialogue. -/
def bow : Choice :=
  { label := "TALK-1S", next := "TALK-1", cost := .singleton duke, gain := .singleton ring }

/-- The texts of the court. -/
def book : TextBook :=
  { lines := .ofList [("TALK", ["Hm?", "Yes?"]), ("TALK-1S", ["Bow"]), ("TALK-1", ["You bow."])]
    ranges := .ofList [("TALK", [⟨0, 2⟩])]
    routes := .ofList [("TALK", { text := ["TALK"], choices := [bow] }),
      ("TALK-1", { text := ["TALK-1"], goto := some "TALK" })] }

/-- The tape that comes of the script. -/
def tape : Tape :=
  { label := "COURT", world := ⟨[⟨"HALL", .singleton duke⟩]⟩,
    rules := [{ target := duke, cost := .singleton duke, drag := false, text := some "TALK" }],
    text := book }

/-- The compiler writes to a folder `out`. -/
def outcome : Outcome :=
  ((CompilerRequest.compile "court.tape" "out" .ron none).plan .standard (.text script)).run
    (Disk.ofFiles [])

end Court

/-- The court is read back from the file that its artifact is written to. -/
theorem court_lossless :
    (Codecs.standard.codec .ron).Faithful ∧ 2 * Court.script.length < Text.wordSize ∧
      ∃ script, Script.compile Court.script = .ok script ∧ script.tapes = [Court.tape] ∧
        Court.outcome.ending = .done ∧
        Codecs.standard.decode? .ron (Codecs.standard.encode .ron Court.tape) = some Court.tape ∧
        Codecs.standard.load "out/COURT.ron" (Court.outcome.disk.read "out/COURT.ron") =
          .ok [Court.tape] ∧
        Codecs.standard.load "out/all.ron" (.text (Codecs.standard.encodeAll .ron [Court.tape])) =
          .ok [Court.tape] := by
  have hcodec := Codecs.standard_faithful .ron
  have hsize : 2 * Court.script.length < Text.wordSize := by decide
  have htapes : (Script.compile Court.script).toOption.map Script.CompiledScript.tapes =
      some [Court.tape] := by decide +kernel
  have hdone : Court.outcome.ending = .done := by decide +kernel
  have hpath : artifactPath "out" .ron Court.tape = "out/COURT.ron" := by decide
  obtain ⟨script, hcompile, htapes⟩ := Script.exists_script_of_tapes htapes
  obtain ⟨hone, hall, hfiles⟩ := artifacts_lossless hcodec hsize hcompile
  obtain ⟨hdecode, -⟩ := hone Court.tape (htapes ▸ List.mem_cons_self)
  obtain ⟨-, hwritten⟩ := hfiles "court.tape" "out" none (Disk.ofFiles []) Court.outcome rfl
  obtain ⟨-, -, -, hload⟩ := hwritten hdone [] Court.tape [] htapes nofun
  rw [hpath] at hload
  have hslash : ∀ t ∈ [Court.tape], '/' ∉ t.label.toList := by decide
  have hlist := hall [Court.tape] (List.cons_ne_nil _ _)
    (fun t ht => ⟨Court.script, script, hsize, hcompile, htapes ▸ ht⟩) "out/all.ron" (by decide)
  exact ⟨hcodec, hsize, script, hcompile, htapes, hdone, hdecode, hload hslash, hlist⟩

/-! ### Labels with slashes

A tape `./A` has its artifact in the place of that of a tape `A`, and the artifact of a tape `./` is
a file that has no name before its extension. -/

namespace Slashed

def hearth : Tag := ⟨"hearth", ⟨.plain, "hearth", none, .unset⟩, by decide, by rfl⟩
def bat : Tag := ⟨"bat", ⟨.plain, "bat", none, .unset⟩, by decide, by rfl⟩
def mirror : Tag := ⟨"mirror", ⟨.plain, "mirror", none, .unset⟩, by decide, by rfl⟩

/-- The labels of three tapes lead through the folder itself, the last to no name in it. -/
def script : String := "== A [HOME, hearth]\n== ./A [CAVE, bat]\n== ./ [HALL, mirror]"

/-- The tape whose file another one takes. -/
def home : Tape := { label := "A", world := ⟨[⟨"HOME", .singleton hearth⟩]⟩ }

/-- The tape that takes the file. -/
def cave : Tape := { label := "./A", world := ⟨[⟨"CAVE", .singleton bat⟩]⟩ }

/-- The tape whose file has no name but its extension. -/
def hall : Tape := { label := "./", world := ⟨[⟨"HALL", .singleton mirror⟩]⟩ }

/-- The compiler writes to the folder it runs in. -/
def outcome : Outcome :=
  ((CompilerRequest.compile "acts.tape" "." .json none).plan .standard (.text script)).run
    (Disk.ofFiles [])

end Slashed

/-- Of three tapes that were written two are not loaded from where they were: another one stands in
the file of the first, and the file of the last is taken for a script. -/
theorem slashed_labels_lost :
    (Script.compile Slashed.script).toOption.map Script.CompiledScript.tapes =
        some [Slashed.home, Slashed.cave, Slashed.hall] ∧
      Slashed.outcome.ending = .done ∧
      artifactPath "." .json Slashed.home = "./A.json" ∧
      (Codecs.standard.load "./A.json" (Slashed.outcome.disk.read "./A.json")).toOption =
        some [Slashed.cave] ∧
      artifactPath "." .json Slashed.hall = "././.json" ∧
      Slashed.outcome.disk.read "././.json" = .text (Codecs.standard.encode .json Slashed.hall) ∧
      (Codecs.standard.load "././.json" (Slashed.outcome.disk.read "././.json")).toOption =
        none := by
  refine ⟨?_, ?_, ?_, ?_, ?_, ?_, ?_⟩ <;> decide +kernel

end StoryTape
