import Mathlib.Data.List.Nodup
import StoryTape.Artifact.Load
import StoryTape.Proofs.JoinedScripts

/-!
# Labels of tapes

No two tapes of a script have the same label in lower case. A label is looked up with only the
ASCII letters of both cases taken as equal, and the lower case of a text is that of the text with
its ASCII capitals made small. So labels that are found alike are the same in lower case, and of the
tapes of a script only one has the label that is looked up.
-/

namespace StoryTape

open Text

namespace Text

/-! ### The two ways to ignore case -/

/-- A capital of the alphabet becomes the same small letter either way. -/
theorem lowerChar_toLower (c : Char) : lowerChar c.toLower = lowerChar c :=
  apply_toLower lowerChar (by decide +kernel) c

/-- A letter stays cased in lower case. -/
theorem isCased_toLower (c : Char) : isCased c.toLower = isCased c :=
  apply_toLower isCased (by decide +kernel) c

/-- What case ignores stays so in lower case. -/
theorem isCaseIgnorable_toLower (c : Char) : isCaseIgnorable c.toLower = isCaseIgnorable c :=
  apply_toLower isCaseIgnorable (by decide +kernel) c

/-- No other letter becomes a sigma. -/
theorem toLower_eq_sigma_iff (c : Char) : c.toLower = '\u03A3' ↔ c = '\u03A3' :=
  iff_of_eq (apply_toLower (· = '\u03A3') (by decide +kernel) c)

/-- A cased letter is met in the folded text when it is met in the text. -/
theorem meetsCased_fold (s : List Char) : meetsCased (fold s) = meetsCased s := by
  induction s with
  | nil => rfl
  | cons c s ih =>
    have hopen : fold (c :: s) = c.toLower :: fold s := rfl
    by_cases hpassed : isCaseIgnorable c = true
    · have hpassed' := (isCaseIgnorable_toLower c).trans hpassed
      rw [hopen, meetsCased, meetsCased, List.dropWhile_cons_of_pos hpassed,
        List.dropWhile_cons_of_pos hpassed', ← meetsCased, ← meetsCased, ih]
    · have hpassed' : ¬ isCaseIgnorable c.toLower = true := isCaseIgnorable_toLower c ▸ hpassed
      rw [hopen, meetsCased, meetsCased, List.dropWhile_cons_of_neg hpassed,
        List.dropWhile_cons_of_neg hpassed']
      exact isCased_toLower c

/-- Folding the alphabet first changes nothing in lower case. -/
theorem lowerAfter_fold (before s : List Char) :
    lowerAfter (fold before) (fold s) = lowerAfter before s := by
  induction s generalizing before with
  | nil => rfl
  | cons c s ih =>
    have hrest := ih (c :: before)
    have hcased := meetsCased_fold before
    have hahead := meetsCased_fold s
    simp only [fold, List.map_cons] at hrest hcased hahead ⊢
    simp only [lowerAfter, toLower_eq_sigma_iff, lowerChar_toLower, hcased, hahead, hrest]

/-- Whatever ASCII capitals a text has, its lower case is the same. -/
theorem lower_fold (s : List Char) : lower (fold s) = lower s :=
  lowerAfter_fold [] s

/-- One name has one text in lower case. -/
theorem lowerText_eq_of_sameName {a b : String} (h : sameName a b = true) :
    lowerText a = lowerText b := by
  rw [sameName, sameFold, beq_iff_eq] at h
  rw [lowerText, lowerText, ← lower_fold a.toList, h, lower_fold]

end Text

namespace Script

/-! ### Labels of a compilation -/

namespace Compilation

/-- No label is taken twice. -/
theorem nodup_labels_readLines {c : Compilation} {ls : List ScriptLine}
    (h : ls.foldlM readLine {} = .ok c) : c.labels.Nodup := by
  refine readLines_induction (P := fun c => c.labels.Nodup) h List.nodup_nil
    (fun c c' hc hclose => ?_) fun c c' l hc _ hread => ?_
  · obtain ⟨hlabels, -⟩ := names_closeOutline hclose
    exact hlabels ▸ hc
  · obtain ⟨hlabels | ⟨label, hnew, hlabels⟩, -⟩ := taken_readContent hread
    · exact hlabels ▸ hc
    · rw [hlabels, ← List.concat_eq_append]
      exact List.Nodup.concat hnew hc

end Compilation

/-- The tapes of a script have different labels, letter case aside. -/
theorem nodup_labels_compile {source : String} {script : CompiledScript}
    (h : compile source = .ok script) :
    (script.tapes.map fun t => lowerText t.label).Nodup := by
  obtain ⟨lines, c, -, hread, hfinish⟩ := compile_eq_ok_iff.mp h
  obtain ⟨c', hsettled, rfl⟩ := Compilation.finish_eq_ok_iff_settled.mp hfinish
  have hlabels := hsettled.labels (Compilation.accounted_readLines hread)
  obtain ⟨c₁, hclose, hseal⟩ := hsettled
  obtain ⟨hclosed, -⟩ := Compilation.names_closeOutline hclose
  obtain ⟨hsealed, -⟩ := Compilation.names_sealDraft hseal
  have hnodup := Compilation.nodup_labels_readLines hread
  rw [hclosed, hsealed] at hnodup
  exact hlabels ▸ hnodup

end Script

/-! ### Looking a label up -/

/-- Of tapes whose labels differ in lower case, no two are found under the same label. -/
theorem Tape.eq_of_sameName {tapes : List Tape} {label : String} {i j : Nat} {t t' : Tape}
    (hnodup : (tapes.map fun t => lowerText t.label).Nodup) (ht : tapes[i]? = some t)
    (ht' : tapes[j]? = some t') (hlabel : sameName t.label label = true)
    (hlabel' : sameName t'.label label = true) : i = j := by
  have hsame : lowerText t.label = lowerText t'.label :=
    (lowerText_eq_of_sameName hlabel).trans (lowerText_eq_of_sameName hlabel').symm
  have hi : i < (tapes.map fun t => lowerText t.label).length := by
    rw [List.length_map]
    exact (List.getElem?_eq_some_iff.mp ht).1
  refine (List.getElem?_inj hi hnodup).mp ?_
  rw [List.getElem?_map, List.getElem?_map, ht, ht', Option.map_some, Option.map_some, hsame]

/-- A tape that is the only one of its label is found under it, wherever it stands. -/
theorem Tape.find?_eq_some_of_unique {tapes : List Tape} {label : String} {t : Tape}
    (ht : t ∈ tapes) (hlabel : sameName t.label label = true)
    (hunique : ∀ t' ∈ tapes, sameName t'.label label = true → t' = t) :
    Tape.find? tapes label = some t := by
  cases hfound : Tape.find? tapes label with
  | none => exact absurd hlabel (List.find?_eq_none.mp hfound t ht)
  | some t' =>
    have hlabel' := List.find?_some hfound
    rw [hunique t' (List.mem_of_find?_eq_some hfound) hlabel']

/-- **Every tape of a script is found under its label.** Under any label that is a tape's but for
the case of ASCII letters, the compiled script and the player's choice of a tape both give that
tape, and no tape anywhere else in the script has such a label. -/
theorem tape_found_by_label {source : String} {script : Script.CompiledScript}
    (h : Script.compile source = .ok script) {i : Nat} {t : Tape}
    (ht : script.tapes[i]? = some t) {label : String} (hlabel : sameName label t.label = true) :
    Tape.find? script.tapes label = some t ∧
      Artifact.select script.tapes (some label) = .ok t ∧
      ∀ j t', script.tapes[j]? = some t' → sameName t'.label label = true → j = i := by
  have hnodup := Script.nodup_labels_compile h
  have hown : sameName t.label label = true := sameName_symm hlabel
  have hplace : ∀ j t', script.tapes[j]? = some t' → sameName t'.label label = true → j = i :=
    fun j t' ht' hlabel' => Tape.eq_of_sameName hnodup ht' ht hlabel' hown
  have hunique : ∀ t' ∈ script.tapes, sameName t'.label label = true → t' = t := by
    intro t' ht' hlabel'
    obtain ⟨j, hj⟩ := List.mem_iff_getElem?.mp ht'
    rw [hplace j t' hj hlabel', ht] at hj
    exact (Option.some.inj hj).symm
  have hfound := Tape.find?_eq_some_of_unique (List.mem_of_getElem? ht) hown hunique
  exact ⟨hfound, by rw [Artifact.select, hfound], hplace⟩

/-! A night and a day, the day found under a label of which only the ASCII letters are small. -/

namespace Daybreak

def lark : Tag := ⟨"lark", ⟨.plain, "lark", none, .unset⟩, by decide, by rfl⟩

/-- The first tape. -/
def night : Tape := { label := "NIGHT", world := ⟨[⟨"HALL", .singleton lark⟩]⟩ }
/-- A tape with a label beyond the alphabet. -/
def day : Tape := { label := "ÉVEIL", world := ⟨[⟨"GARDEN", .singleton lark⟩]⟩ }

/-- Two tapes of which the second is looked for. -/
def source : String := "== NIGHT [HALL, lark]\n== ÉVEIL [GARDEN, lark]"

/-- The label is found in other letters, as long as the one beyond the alphabet is kept. -/
theorem day_found : ∃ script, Script.compile source = .ok script ∧ script.tapes = [night, day] ∧
    Tape.find? script.tapes "Éveil" = some day ∧
    Artifact.select script.tapes (some "Éveil") = .ok day ∧
    ∀ j t', script.tapes[j]? = some t' → sameName t'.label "Éveil" = true → j = 1 := by
  have hresult : (Script.compile source).toOption.map Script.CompiledScript.tapes =
      some [night, day] := by decide +kernel
  obtain ⟨script, hcompile, htapes⟩ := Script.exists_script_of_tapes hresult
  have hday : script.tapes[1]? = some day := by
    rw [htapes]
    rfl
  have hlabel : sameName "Éveil" day.label = true := by decide
  exact ⟨script, hcompile, htapes, tape_found_by_label hcompile hday hlabel⟩

end Daybreak

end StoryTape
