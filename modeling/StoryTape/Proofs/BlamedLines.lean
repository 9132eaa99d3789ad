import StoryTape.Proofs.DeclaredLines
import StoryTape.Proofs.NamedCounters
import StoryTape.Proofs.RaisedErrors

/-!
# Lines that errors are blamed on

What is wrong with a line, with a dialogue or with a tape that another one follows is blamed on one
line of the script: on that line, on the first line of the dialogue, on the line that opens the next
tape. Only the last tape is sealed without a line to blame. Sealing it fails exactly when a sequence
of it has a double hyphen in its name, for then its counter is no tag.
-/

namespace StoryTape

open Text ScriptError

/-! ### Messages -/

/-- A message opens with the mark of a line, and no second mark follows. -/
def PointsAt (message : String) (number : Nat) : Prop :=
  ∃ rest, message = lineMark number ++ rest ∧ ∀ number' rest', rest ≠ lineMark number' ++ rest'

/-- What opens otherwise than a mark opens with no mark. -/
theorem OpensOtherThan.ne_lineMark {s : String} (h : OpensOtherThan 'l' s) (number : Nat)
    (rest : String) : s ≠ lineMark number ++ rest := by
  rintro rfl
  obtain ⟨c, hc, hne⟩ := h
  have hmark : (lineMark number ++ rest).toList.head? = some 'l' := by
    simp [lineMark, String.toList_append]
  rw [hmark] at hc
  exact hne (Option.some.inj hc).symm

/-- The message of an error that is blamed on no line is that of its cause. -/
theorem ScriptError.Raised.message_eq {e : ScriptError} (h : e.Raised) :
    e.message = e.cause.message := by
  rw [message, h.lines_eq_nil]
  rfl

namespace Script

/-- The source has a line of that number, counted from one, and the line is not blank. -/
def HasLine (source : String) (number : Nat) : Prop :=
  ∃ line, (number, line) ∈ numberedLines source.toList ∧ line ≠ []

/-- An error that is blamed on one line of the source. -/
def Blamed (source : String) (e : ScriptError) : Prop :=
  ∃ number, HasLine source number ∧ e.lines = [number] ∧ e.cause.Plain

section Source

variable {source : String} {e : ScriptError}

/-- The message of a blamed error points at a line of the source that is not blank. -/
theorem Blamed.pointsAt (h : Blamed source e) :
    ∃ number, HasLine source number ∧ PointsAt e.message number := by
  obtain ⟨number, hline, hlines, hplain⟩ := h
  refine ⟨number, hline, e.cause.message, ?_, hplain.ne_lineMark⟩
  rw [message, hlines]
  rfl

/-- An error as it is raised can be blamed on a line. -/
theorem failsWith_atLine {α : Type} {r : Checked α} (h : FailsWith Raised r) {number : Nat}
    (hline : HasLine source number) : FailsWith (Blamed source) (r.atLine number) :=
  h.mapError fun e he => ⟨number, hline, by rw [atLine, he.lines_eq_nil], he.plain⟩

/-! ### Declarations -/

/-- A script that cannot be cut into lines has a line to blame. -/
theorem failsWith_splitScript (source : String) :
    FailsWith (Blamed source) (splitScript source) := by
  refine failsWith_foldlM (I := fun _ => True) trivial ?_
  rintro ⟨number, line⟩ hnumbered ls -
  refine ⟨fun e hfails => ?_, fun _ _ => trivial⟩
  obtain ⟨hne, -, -, rfl⟩ := readLine_eq_error_iff.mp hfails
  exact ⟨number, ⟨line, hnumbered, hne⟩, rfl, Cause.plain_of_ne nofun⟩

/-- Declarations have the numbers of lines of the source. -/
theorem hasLine_of_splitScript {lines : List ScriptLine} (h : splitScript source = .ok lines) :
    ∀ l ∈ lines, HasLine source l.number := by
  have hnumbers : ∀ number ∈ lines.map ScriptLine.number, HasLine source number := by
    refine foldlM_ok_induction
      (P := fun ls => ∀ number ∈ ls.map ScriptLine.number, HasLine source number) h nofun ?_
    rintro ⟨number, line⟩ hnumbered ls ls' hls hread
    rcases readLine_eq_ok_iff.mp hread with ⟨-, rfl⟩ | ⟨kind, hkind, rfl⟩ | ⟨-, -, -, rfl⟩
    · exact hls
    · have hne : line ≠ [] := by
        rintro rfl
        cases hkind
      rw [List.map_append, List.forall_mem_append]
      refine ⟨hls, fun number' hnumber' => ?_⟩
      obtain rfl : number' = number := by simpa [ScriptLine.ofLine] using hnumber'
      exact ⟨line, hnumbered, hne⟩
    · rw [numbers_extendLast]
      exact hls
  exact fun l hl => hnumbers l.number (List.mem_map_of_mem hl)

/-! ### Content -/

namespace Compilation

variable {c c' : Compilation} {l : ScriptLine}

/-- The open dialogue started on a line of the source. -/
def Started (source : String) (c : Compilation) : Prop :=
  ∀ opened ∈ c.outline, HasLine source opened.1

/-- Reading a line of the source leaves the open dialogue with a line it started on. -/
theorem Started.readLine (h : c.Started source) (hl : HasLine source l.number)
    (hread : c.readLine l = .ok c') : c'.Started source := by
  rcases readLine_cases hread with ⟨hkind, hcontent⟩ | ⟨hkind, c₁, hclose, hcontent⟩
  · rw [Compilation.readContent, hkind] at hcontent
    obtain ⟨d, c₁, start, o, o', store, -, hopen, -, rfl⟩ := readRoute_eq_ok_iff.mp hcontent
    rintro _ ⟨⟩
    unfold dialogueFor at hopen
    split at hopen
    · next ho =>
      cases hopen
      exact h (start, o) ho
    · cases hopen
      exact hl
  · intro opened hopened
    rw [outline_readContent hkind hcontent, outline_closeOutline hclose] at hopened
    cases hopened

/-- A dialogue that cannot be closed is blamed on the line it started on. -/
theorem Started.failsWith_closeOutline (h : c.Started source) :
    FailsWith (Blamed source) c.closeOutline := by
  rw [closeOutline]
  split
  · exact failsWith_ok _
  · next start o ho => exact failsWith_atLine (failsWith_addOutline _ o) (h _ ho)

/-- A line fails with an error that is blamed on it or on the first line of the open dialogue. -/
theorem Started.failsWith_readLine (h : c.Started source) (hl : HasLine source l.number) :
    FailsWith (Blamed source) (c.readLine l) := by
  have hcontent (c : Compilation) : FailsWith (Blamed source) ((c.readContent l).atLine l.number) :=
    failsWith_atLine (c.failsWith_readContent l) hl
  unfold Compilation.readLine
  split
  · exact (failsWith_ok c).bind fun c _ => hcontent c
  · exact h.failsWith_closeOutline.bind fun c _ => hcontent c

end Compilation

end Source

/-! ### Sealing -/

/-- Texts make a tag set when each of them reads as a tag. -/
theorem exists_ofRaws_iff {raws : List String} :
    (∃ tags, TagSet.ofRaws raws = .ok tags) ↔ ∀ raw ∈ raws, ∃ t, Tag.parse raw = .ok t := by
  rw [← exists_mapM_ok_iff]
  constructor
  · rintro ⟨tags, h⟩
    obtain ⟨members, hmembers, -⟩ := bind_eq_ok_iff.mp h
    exact ⟨members, hmembers⟩
  · rintro ⟨members, hmembers⟩
    exact ⟨_, bind_eq_ok_iff.mpr ⟨members, hmembers, rfl⟩⟩

/-- Counters are put into a world when all of them read. -/
theorem exists_addCounters_iff {name : String} {counters : List String} {w : World} :
    (∃ w', addCounters name counters w = .ok w') ↔
      ∀ counter ∈ counters, ∃ t, Tag.parse counter = .ok t := by
  rw [addCounters]
  split
  · next hempty =>
    rw [List.isEmpty_iff.mp hempty]
    exact iff_of_true ⟨w, rfl⟩ (List.forall_mem_nil _)
  · rw [← exists_ofRaws_iff]
    constructor
    · rintro ⟨w', h⟩
      obtain ⟨tags, htags, -⟩ := bind_eq_ok_iff.mp h
      exact ⟨tags, mapError_eq_ok_iff.mp htags⟩
    · rintro ⟨tags, htags⟩
      exact ⟨_, bind_eq_ok_iff.mpr ⟨tags, mapError_eq_ok_iff.mpr htags, rfl⟩⟩

/-- A tape is sealed when all its counters read. -/
theorem Draft.exists_seal_iff {d : Draft} :
    (∃ t, d.seal = .ok t) ↔
      ∀ kind, ∀ counter ∈ d.store.counters kind, ∃ t, Tag.parse counter = .ok t := by
  constructor
  · rintro ⟨t, h⟩ kind
    obtain ⟨w, w', hloops, honces, -⟩ := Draft.seal_eq_ok h
    cases kind with
    | loop => exact exists_addCounters_iff.mp ⟨w, hloops⟩
    | once => exact exists_addCounters_iff.mp ⟨w', honces⟩
  · intro h
    obtain ⟨w, hloops⟩ := (@exists_addCounters_iff loopName _ d.world).mpr (h .loop)
    obtain ⟨w', honces⟩ := (@exists_addCounters_iff onceName _ w).mpr (h .once)
    exact ⟨_, bind_eq_ok_iff.mpr ⟨w, hloops, bind_eq_ok_iff.mpr ⟨w', honces, rfl⟩⟩⟩

/-- A sequence has a double hyphen in its name. -/
def Draft.Hyphenated (d : Draft) : Prop :=
  ∃ kind name, counterTag name 0 ∈ d.store.counters kind ∧ ['-', '-'] <:+: name.toList

/-- Counters at the same position belong to the same name. -/
theorem counterTag_injective (index : Nat) :
    Function.Injective fun name => counterTag name index := by
  intro name name' h
  have htexts := congrArg String.toList h
  simp only [toList_counterTag] at htexts
  exact String.toList_inj.mp (List.append_cancel_right htexts)

/-- A tape with counters of names cannot be sealed exactly when one has a double hyphen. -/
theorem Draft.exists_seal_iff_not_hyphenated {d : Draft} (h : d.store.Counted) :
    (∃ t, d.seal = .ok t) ↔ ¬ d.Hyphenated := by
  rw [Draft.exists_seal_iff]
  constructor
  · rintro hreads ⟨kind, name, hcounter, hhyphens⟩
    obtain ⟨name', hname, htext, -⟩ := h kind _ hcounter
    rw [← counterTag_injective 0 hname] at htext
    exact htext.parse_counterTag_iff.mp (hreads kind _ hcounter) hhyphens
  · intro hnone kind counter hcounter
    obtain ⟨name, rfl, htext, -⟩ := h kind counter hcounter
    exact htext.parse_counterTag_iff.mpr fun hhyphens => hnone ⟨kind, name, hcounter, hhyphens⟩

/-! ### Scripts -/

/-- Read all lines of a script and close its last dialogue. -/
def readThrough (source : String) : Checked Compilation :=
  splitScript source >>= fun lines =>
    lines.foldlM Compilation.readLine {} >>= Compilation.closeOutline

/-- A script that is read through is compiled when its last tape can be sealed. -/
theorem compile_eq_readThrough (source : String) :
    compile source = readThrough source >>= fun c =>
      c.sealDraft >>= fun c => pure ⟨c.tapes, c.parts, c.index⟩ := by
  unfold compile Compilation.finish readThrough
  simp only [bind_assoc]

/-- The script can be read through, and this is its last tape, left to be sealed. -/
def LeavesOpen (source : String) (d : Draft) : Prop :=
  ∃ c, readThrough source = .ok c ∧ c.draft = some d

section Source

variable {source : String} {e : ScriptError}

/-- A script that cannot be read through has a line to blame. -/
theorem failsWith_readThrough (source : String) :
    FailsWith (Blamed source) (readThrough source) := by
  refine (failsWith_splitScript source).bind fun lines hsplit => ?_
  have hnumbers := hasLine_of_splitScript hsplit
  refine FailsWith.bind ?_ fun c hread => ?_
  · exact failsWith_foldlM (I := Compilation.Started source) nofun fun l hl c hc =>
      ⟨hc.failsWith_readLine (hnumbers l hl), fun _ hstep => hc.readLine (hnumbers l hl) hstep⟩
  · have hstarted : c.Started source := foldlM_ok_induction hread nofun
      fun l hl _ _ hc hstep => hc.readLine (hnumbers l hl) hstep
    exact hstarted.failsWith_closeOutline

/-- In the tape left open every counter is the first of a name that has lines. -/
theorem LeavesOpen.counted {d : Draft} (h : LeavesOpen source d) : d.store.Counted := by
  obtain ⟨c', hthrough, hd⟩ := h
  obtain ⟨lines, -, hthrough⟩ := bind_eq_ok_iff.mp hthrough
  obtain ⟨c, hread, hclose⟩ := bind_eq_ok_iff.mp hthrough
  have hc : c.Traced lines := foldlM_ok_induction hread ⟨nofun, nofun, nofun⟩
    fun _ hl _ _ hc hstep => hc.readLine hl hstep
  exact ((hc.closeOutline hclose).draft d hd).counted

/-- The error of a script is blamed on a line, and then the script cannot be read through, or its
last tape cannot be sealed. -/
theorem compile_error_cases (h : compile source = .error e) :
    (Blamed source e ∧ ∀ d, ¬ LeavesOpen source d) ∨
      ∃ d, LeavesOpen source d ∧ d.Hyphenated ∧ e.Raised := by
  rw [compile_eq_readThrough] at h
  rcases bind_eq_error_iff.mp h with hfails | ⟨c, hthrough, h⟩
  · refine .inl ⟨failsWith_readThrough source e hfails, ?_⟩
    rintro d ⟨c, hthrough, -⟩
    cases hthrough.symm.trans hfails
  rcases bind_eq_error_iff.mp h with hseal | ⟨_, -, h⟩
  · have hraised := c.failsWith_sealDraft e hseal
    rw [Compilation.sealDraft] at hseal
    split at hseal
    · cases hseal
    · next d hd =>
      have hopen : LeavesOpen source d := ⟨c, hthrough, hd⟩
      refine .inr ⟨d, hopen, ?_, hraised⟩
      by_contra hnone
      obtain ⟨t, ht⟩ := (Draft.exists_seal_iff_not_hyphenated hopen.counted).mpr hnone
      rw [ht] at hseal
      cases hseal
  · cases h

/-- **Errors point at lines.** The message of an error that a script fails with opens with the mark
of a line, a single one, and that line stands in the source; except that an error opens with no mark
at all when only the last tape is left to be sealed and a sequence of it has a double hyphen in its
name. -/
theorem compile_error_pointsAt_iff (h : compile source = .error e) :
    ((∃ number, HasLine source number ∧ PointsAt e.message number) ↔
      ¬ ∃ d, LeavesOpen source d ∧ d.Hyphenated) ∧
    ((∃ d, LeavesOpen source d ∧ d.Hyphenated) →
      ∀ number rest, e.message ≠ lineMark number ++ rest) := by
  rcases compile_error_cases h with ⟨hblamed, hnone⟩ | ⟨d, hopen, hhyphens, hraised⟩
  · have hnot : ¬ ∃ d, LeavesOpen source d ∧ d.Hyphenated := fun ⟨d, hopen, _⟩ => hnone d hopen
    exact ⟨iff_of_true hblamed.pointsAt hnot, fun hexists => absurd hexists hnot⟩
  · have hmark : ∀ number rest, e.message ≠ lineMark number ++ rest :=
      hraised.message_eq ▸ hraised.plain.ne_lineMark
    refine ⟨iff_of_false ?_ (not_not_intro ⟨d, hopen, hhyphens⟩), fun _ => hmark⟩
    rintro ⟨number, -, rest, hmessage, -⟩
    exact hmark number rest hmessage

end Source

/-- The error that is computed of a script is that of the script. -/
theorem compile_eq_error {source : String} {e : ScriptError}
    (h : (match compile source with | .ok _ => none | .error e => some e) = some e) :
    compile source = .error e := by
  split at h
  · cases h
  · next e' hcompile => rw [hcompile, Option.some.inj h]

/-! A hall that is opened twice, and a hall where nobody can knock: the counter of the sequence is
read as a step down. -/

namespace Knock

/-- Two tapes of one label. -/
def twice : String := "== HALL [HALL, door]\n== hall [HALL, door]"

/-- The label is taken, and the line of the second tape is to blame. -/
def taken : ScriptError := { cause := .tapeExists "hall", phase := .tape, lines := [2] }

/-- The second tape is refused with its line. -/
theorem compile_twice : compile twice = .error taken := compile_eq_error (by decide +kernel)

/-- The name of a sequence holds two hyphens. -/
def knocking : String := "== HALL [HALL, door]\n## KNOCK--KNOCK Who?|Who is there?"

/-- A counter of the sequence reads as a range, and no line is to blame. -/
def unread : ScriptError :=
  { cause := .notANumber "KNOCK--KNOCK_0" "--" "KNOCK_0", phase := .text }

/-- The tape is refused without a line. -/
theorem compile_knocking : compile knocking = .error unread :=
  compile_eq_error (by decide +kernel)

/-- A script that cannot be read through leaves no tape open. -/
theorem not_leavesOpen_twice (d : Draft) : ¬ LeavesOpen twice d := by
  rintro ⟨c, hthrough, -⟩
  have hfails : (readThrough twice).toOption.isNone = true := by decide +kernel
  rw [hthrough] at hfails
  cases hfails

/-- The tape of the second is read to its end. -/
theorem leavesOpen_knocking : ∃ d, LeavesOpen knocking d ∧ d.Hyphenated := by
  rcases compile_error_cases compile_knocking with ⟨⟨_, -, hlines, -⟩, -⟩ | ⟨d, hopen, hname, -⟩
  · cases hlines
  · exact ⟨d, hopen, hname⟩

/-- The error of the first is found on a line, that of the second opens with no mark. -/
theorem taken_pointsAt_line :
    (compile twice = .error taken ∧ (∀ d, ¬ LeavesOpen twice d) ∧
      ∃ number, HasLine twice number ∧ PointsAt taken.message number) ∧
    compile knocking = .error unread ∧ (∃ d, LeavesOpen knocking d ∧ d.Hyphenated) ∧
      ∀ number rest, unread.message ≠ lineMark number ++ rest := by
  obtain ⟨hpoints, -⟩ := compile_error_pointsAt_iff compile_twice
  obtain ⟨-, hmark⟩ := compile_error_pointsAt_iff compile_knocking
  refine ⟨⟨compile_twice, not_leavesOpen_twice, hpoints.mpr ?_⟩, compile_knocking,
    leavesOpen_knocking, hmark leavesOpen_knocking⟩
  rintro ⟨d, hopen, -⟩
  exact not_leavesOpen_twice d hopen

/-- So the error of the second points at no line of the script. -/
theorem unread_without_line : compile knocking = .error unread ∧
    unread.message = "tag 'KNOCK--KNOCK_0': 'KNOCK_0' after '--' is not a number" ∧
    ¬ ∃ number, HasLine knocking number ∧ PointsAt unread.message number := by
  have hplain : unread.cause.Plain := Cause.plain_of_ne nofun
  refine ⟨compile_knocking, by decide, ?_⟩
  rintro ⟨number, -, rest, hmessage, -⟩
  exact hplain.ne_lineMark number rest hmessage

end Knock

end Script

end StoryTape
