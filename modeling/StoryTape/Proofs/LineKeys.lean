import StoryTape.TextBook.Reading
import StoryTape.Proofs.Texts

/-!
# Keys that have lines

The key of a line is looked up in two ways: a name that has lines means the first of them, any
other key is cut at its last underscore into a name and an index. Here both ways are shown to
lead from the key of a stored line back to a line, so that whatever reading a resolvable name
shows can be shown.
-/

namespace StoryTape

open Text

/-- The key of a later line is the name, an underscore and the number of the line. -/
theorem toList_lineKey {name : String} {index : Nat} (h : index ≠ 0) :
    (lineKey name index).toList = name.toList ++ '_' :: writeCount index := by
  simp [lineKey, h, countText]

/-- The key of a later line ends in a digit, so nothing of it is dropped. -/
theorem bareKey_lineKey {name : String} {index : Nat} (h : index ≠ 0) :
    bareKey (lineKey name index) = lineKey name index := by
  have hkeep : ∀ c ∈ writeCount index, (c == '%' || c == '#') = false := by
    intro c hc
    have hdigit := isDigit_of_mem_writeCount hc
    rw [Bool.or_eq_false_iff, beq_eq_false_iff_ne, beq_eq_false_iff_ne]
    constructor <;> rintro rfl <;> exact absurd hdigit (by decide)
  rw [bareKey, toList_lineKey h, List.append_cons,
    dropEndWhile_append_eq_self _ (writeCount_ne_nil index) hkeep, ← List.append_cons,
    ← toList_lineKey h, String.ofList_toList]

/-- The key of a later line is cut into its name and its index. -/
theorem splitIndex_lineKey {name : String} {index : Nat} (h : index ≠ 0) (hi : index < wordSize) :
    splitIndex (lineKey name index).toList = some (name.toList, index) := by
  have hunderscore : '_' ∉ writeCount index := Nat.underscore_not_in_toDigits
  simp [splitIndex, toList_lineKey h, splitLast_append _ hunderscore, readCount_writeCount hi]

namespace TextBook

variable {b : TextBook}

/-- Whether the indices of lines fit into a machine word, as those of stored lists do. -/
def Fits (b : TextBook) : Prop := ∀ name, b.lineCount name ≤ wordSize

/-- The lines of a book fit if those of every entry do. -/
theorem fits_of_entries (h : ∀ entry ∈ b.lines.entries, entry.2.length ≤ wordSize) : b.Fits := by
  intro name
  rw [lineCount, linesOf, Dict.get?]
  cases hfind : b.lines.entries.find? (·.1 == name) with
  | none => simp
  | some entry => exact h entry (List.mem_of_find?_eq_some hfind)

/-- A key has a line when one is found. -/
theorem hasLine_eq_true_iff {key : String} :
    b.hasLine key = true ↔ ∃ line, b.line key = .ok line := by
  rw [hasLine]
  cases b.line key <;> simp [Except.isOk, Except.toBool]

/-- A signal ends in a bracket, so it stands for itself whatever the lines are. -/
theorem hasLine_of_isSignal {key : String} (h : isSignal key = true) : b.hasLine key = true := by
  obtain ⟨-, hends⟩ := Bool.and_eq_true_iff.mp h
  obtain ⟨before, hbefore⟩ := List.isSuffixOf_iff_suffix.mp hends
  have hbare : bareKey key = key := by
    rw [bareKey, ← hbefore, dropEndWhile_append_eq_self _ (by simp) (by simp), hbefore,
      String.ofList_toList]
  rw [hasLine_eq_true_iff]
  exact ⟨key, by simp only [line, hbare, h, if_true]⟩

/-- The key of a later line, cut into name and index, leads to that line. -/
theorem indexedLine_lineKey {name line : String} {index : Nat} (h : index ≠ 0)
    (hword : index < wordSize) (hline : (b.linesOf name)[index]? = some line) :
    b.indexedLine (lineKey name index) = .ok line := by
  cases hlines : b.lines.get? name with
  | none => simp [linesOf, hlines] at hline
  | some lines =>
    rw [linesOf, hlines, Option.getD_some] at hline
    simp [indexedLine, splitIndex_lineKey h hword, hlines, hline]

/-- Every stored line of a name that has a line is found by its key. -/
theorem hasLine_lineKey (hb : b.Fits) {name : String} {index : Nat}
    (hname : b.hasLine name = true) (hi : index < b.lineCount name) :
    b.hasLine (lineKey name index) = true := by
  by_cases h : index = 0
  · simpa [lineKey, h] using hname
  · have hword : index < wordSize := Nat.lt_of_lt_of_le hi (hb name)
    rw [hasLine_eq_true_iff, line, bareKey_lineKey h]
    split
    · exact ⟨_, rfl⟩
    · split
      · next first _ => exact ⟨first, rfl⟩
      · exact ⟨_, indexedLine_lineKey h hword (List.getElem?_eq_getElem hi)⟩

/-- Whether all keys of a reading have lines. -/
def Shows (b : TextBook) (keys : List String) : Prop := ∀ key ∈ keys, b.hasLine key = true

/-- Wherever the counter of a sequence stands, its current line is found. -/
theorem shows_readSequence (hb : b.Fits) {w : World} {name : String} {reading : Reading}
    (hname : b.hasLine name = true) (h : b.readSequence? w name = some reading) :
    b.Shows reading.keys := by
  simp only [readSequence?] at h
  split at h
  · simp at h
  · next kind index _ =>
    split at h
    · simp at h
    · next hcount =>
      obtain rfl := Option.some.inj h
      have hindex : min index (b.lineCount name - 1) < b.lineCount name := by omega
      intro key hkey
      obtain rfl := List.mem_singleton.mp hkey
      exact hasLine_lineKey hb hname hindex

/-- A key that has a line can be read in every world. -/
theorem readKey_shows (hb : b.Fits) (w : World) {key : String} (hkey : b.hasLine key = true) :
    ∃ reading, b.readKey w key = .ok reading ∧ b.Shows reading.keys := by
  rw [readKey]
  split
  · next reading hread => exact ⟨reading, rfl, shows_readSequence hb hkey hread⟩
  · obtain ⟨line, hline⟩ := hasLine_eq_true_iff.mp hkey
    exact ⟨{ keys := [key] }, by rw [hline]; rfl, by simpa [Shows] using hkey⟩

/-- A name that has a line can be read in every world. -/
theorem readName_shows (hb : b.Fits) (w : World) {name : String} (hname : b.hasLine name = true) :
    ∃ reading, b.readName w name = .ok reading ∧ b.Shows reading.keys := by
  simp only [readName]
  split
  · next reading hread => exact ⟨reading, rfl, shows_readSequence hb hname hread⟩
  · split
    · refine ⟨_, rfl, fun key hkey => ?_⟩
      obtain ⟨index, hindex, rfl⟩ := List.mem_map.mp hkey
      exact hasLine_lineKey hb hname (List.mem_range.mp hindex)
    · exact readKey_shows hb w hname

end TextBook

end StoryTape
