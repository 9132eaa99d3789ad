import StoryTape.Artifact.Json.Printer
import StoryTape.Artifact.Json.Reader
import StoryTape.Proofs.Shapes
import StoryTape.Proofs.Texts

/-!
# What is written as JSON is read back

Data of a shape, written as JSON, is read for that shape as what it was, up to what follows it.
The readers never look further than one character beyond what they read, and what follows a value
is a comma or a new line.
-/

namespace StoryTape.Artifact.Json

open Text

/-! ### White space -/

/-- White space in front of a text is skipped. -/
theorem skip_of_blank {blank : List Char} (h : ∀ c ∈ blank, isSpace c = true) (s : List Char) :
    skip (blank ++ s) = skip s := List.dropWhile_append_of_pos h

/-- Nothing is skipped in front of another character. -/
theorem skip_cons {c : Char} (h : isSpace c = false) (s : List Char) : skip (c :: s) = c :: s := by
  simp [skip, h]

/-- The text starts with a character that is no white space and not the closing one. -/
def Opens (closing : Char) (s : List Char) : Prop :=
  ∃ c, s.head? = some c ∧ isSpace c = false ∧ c ≠ closing

/-- Nothing is skipped in front of a text that opens. -/
theorem Opens.skip_append {closing : Char} {s : List Char} (h : Opens closing s)
    (rest : List Char) : skip (s ++ rest) = s ++ rest := by
  obtain ⟨c, hs, hc, -⟩ := h
  obtain ⟨s, rfl⟩ := List.head?_eq_some_iff.mp hs
  exact skip_cons hc (s ++ rest)

/-- What follows a value: nothing, a comma or a new line. -/
def Ends (s : List Char) : Prop := ∀ c ∈ s.head?, c = ',' ∨ c = '\n'

/-- A comma or a new line ends a value. -/
theorem ends_cons {c : Char} (h : c = ',' ∨ c = '\n') (s : List Char) : Ends (c :: s) := by
  simpa [Ends] using h

/-! ### Texts -/

/-- The number of a control character is read back from its hexadecimal digits. -/
theorem hexNumber_control :
    ∀ n < 0x20, hexNumber ['0', '0', Nat.digitChar (n / 16), Nat.digitChar (n % 16)] = some n := by
  decide

/-- An escaped character is read as the character. -/
theorem readText_escapeChar (c : Char) (found s : List Char) :
    readText found (escapeChar c ++ s) = readText (c :: found) s := by
  rw [escapeChar]
  by_cases hquote : c = '"'
  · simp [hquote, readText, simpleEscape]
  by_cases hslash : c = '\\'
  · simp [hslash, readText, simpleEscape]
  by_cases hline : c = '\n'
  · simp [hline, readText, simpleEscape]
  by_cases hreturn : c = '\r'
  · simp [hreturn, readText, simpleEscape]
  by_cases htab : c = '\t'
  · simp [htab, readText, simpleEscape]
  by_cases hback : c.toNat = 0x08
  · obtain rfl : c = '\x08' := Char.toNat_inj.mp hback
    simp [readText, simpleEscape]
  by_cases hfeed : c.toNat = 0x0C
  · obtain rfl : c = '\x0c' := Char.toNat_inj.mp hfeed
    simp [readText, simpleEscape]
  by_cases hcontrol : c.toNat < 0x20
  · have hhalf : isHighHalf c.toNat = false := by simp [isHighHalf]; omega
    simp [hquote, hslash, hline, hreturn, htab, hback, hfeed, hcontrol, readText,
      hexNumber_control _ hcontrol, hhalf, charOf?_toNat]
  · simp [hquote, hslash, hline, hreturn, htab, hback, hfeed, hcontrol, readText]

/-- An escaped text is read back up to the quote behind it. -/
theorem readText_escaped (cs found rest : List Char) :
    readText found (cs.flatMap escapeChar ++ '"' :: rest) = some (found.reverse ++ cs, rest) := by
  induction cs generalizing found with
  | nil => simp [readText]
  | cons c cs ih =>
    rw [List.flatMap_cons, List.append_assoc, readText_escapeChar, ih, List.reverse_cons,
      List.append_assoc]
    rfl

/-- A quoted text is read as the text. -/
theorem readQuoted_quote (s : String) (rest : List Char) :
    readQuoted ((quote s).toList ++ rest) = some (s.toList, rest) := by
  simp [quote, readQuoted, readText_escaped]

/-! ### Counts -/

/-- What ends a value goes on with no digit. -/
theorem Ends.not_isDigit {s : List Char} (h : Ends s) : ∀ c ∈ s.head?, c.isDigit = false := by
  intro c hc
  rcases h c hc with rfl | rfl <;> decide

/-- The digits of a count are read as far as they go. -/
theorem readWhole_writeCount (n : Nat) {rest : List Char} (hrest : Ends rest) :
    readWhole (writeCount n ++ rest) = some (writeCount n, rest) := by
  have hall : ∀ c ∈ writeCount n, c.isDigit = true := fun c => isDigit_of_mem_writeCount
  have hstop : rest.takeWhile Char.isDigit = [] ∧ rest.dropWhile Char.isDigit = rest := by
    cases rest with
    | nil => exact ⟨rfl, rfl⟩
    | cons c s =>
      have hc := hrest.not_isDigit c rfl
      simp [hc]
  have hzero : ¬ (1 < (writeCount n).length ∧ (writeCount n).head? = some '0') := by
    rintro ⟨hlong, hhead⟩
    by_cases hn : n = 0
    · subst hn
      exact absurd hlong (by decide)
    · exact head?_writeCount hn hhead
  simp [readWhole, List.takeWhile_append_of_pos hall, List.dropWhile_append_of_pos hall, hstop,
    writeCount_ne_nil, hzero]

/-- A count that fits into a machine word is read back. -/
theorem readCount_countText {n : Nat} (hn : n < wordSize) {rest : List Char} (hrest : Ends rest) :
    readCount ((countText n).toList ++ rest) = some (n, rest) := by
  have hgoes : (rest.head?.any fun c => c == '.' || opensExponent c) = false := by
    cases rest with
    | nil => rfl
    | cons c s => rcases hrest c rfl with rfl | rfl <;> rfl
  simp [readCount, countText, readWhole_writeCount n hrest, digitsValue_writeCount, hgoes, hn]

/-! ### Elements between brackets -/

/-- Texts one per line, with commas between them. -/
def commaLines (indent : List Char) : List (List Char) → List Char
  | [] => []
  | t :: ts =>
    indent ++ t ++ (if ts.isEmpty then [] else ',' :: '\n' :: commaLines indent ts)

/-- One text is a line without comma. -/
theorem commaLines_singleton (indent t : List Char) : commaLines indent [t] = indent ++ t := by
  simp [commaLines]

/-- The first of several texts is a line with a comma. -/
theorem commaLines_cons_cons (indent t t' : List Char) (ts : List (List Char)) :
    commaLines indent (t :: t' :: ts) =
      indent ++ (t ++ ',' :: '\n' :: commaLines indent (t' :: ts)) := by
  rw [commaLines]
  simp

/-- There are at least as many characters as texts. -/
theorem length_le_commaLines {indent : List Char} (h : indent ≠ []) (ts : List (List Char)) :
    ts.length ≤ (commaLines indent ts).length := by
  have hindent : 0 < indent.length := List.length_pos_iff.mpr h
  induction ts with
  | nil => exact Nat.zero_le _
  | cons t ts ih =>
    cases ts with
    | nil =>
      rw [commaLines_singleton, List.length_append, List.length_singleton]
      omega
    | cons t' ts =>
      rw [commaLines_cons_cons, List.length_append, List.length_append, List.length_cons]
      simp only [List.length_cons] at ih ⊢
      omega

section Brackets

variable {α β : Type} {element : List Char → Option (β × List Char)} {text : α → List Char}
  {value : α → β} {closing : Char} {indent outer : List Char}

/-- Every element is read back from its text. -/
structure ReadsEach (element : List Char → Option (β × List Char)) (text : α → List Char)
    (value : α → β) (closing : Char) (xs : List α) : Prop where
  opens : ∀ x ∈ xs, Opens closing (text x)
  reads : ∀ x ∈ xs, ∀ rest, Ends rest → element (text x ++ rest) = some (value x, rest)

/-- Where every element is read back, those behind the first are. -/
theorem ReadsEach.tail {x : α} {xs : List α} (h : ReadsEach element text value closing (x :: xs)) :
    ReadsEach element text value closing xs :=
  ⟨fun y hy => h.opens y (List.mem_cons_of_mem x hy),
    fun y hy => h.reads y (List.mem_cons_of_mem x hy)⟩

/-- A new line is skipped. -/
theorem skip_newline (s : List Char) : skip ('\n' :: s) = skip s := by
  have hline : ∀ c ∈ ['\n'], isSpace c = true := List.forall_mem_singleton.mpr rfl
  exact skip_of_blank hline s

/-- Elements are read line by line up to the closing bracket. -/
theorem readElements_commaLines (hindent : ∀ c ∈ indent, isSpace c = true)
    (houter : ∀ c ∈ outer, isSpace c = true) (hspace : isSpace closing = false)
    (hcomma : ',' ≠ closing) {x : α} {xs : List α}
    (h : ReadsEach element text value closing (x :: xs)) {rounds : Nat}
    (hrounds : xs.length < rounds) (found : List β) (rest : List Char) :
    readElements element closing rounds found
        (skip (commaLines indent ((x :: xs).map text) ++ '\n' :: (outer ++ closing :: rest))) =
      some (found.reverse ++ (x :: xs).map value, rest) := by
  induction xs generalizing x rounds found with
  | nil =>
    obtain ⟨rounds, rfl⟩ := Nat.exists_eq_succ_of_ne_zero (Nat.ne_of_gt hrounds)
    have hread := h.reads x List.mem_cons_self _
      (ends_cons (.inr rfl) (outer ++ closing :: rest))
    have hclose : skip ('\n' :: (outer ++ closing :: rest)) = closing :: rest := by
      rw [skip_newline, skip_of_blank houter, skip_cons hspace]
    rw [List.map_singleton, commaLines_singleton, List.append_assoc, skip_of_blank hindent,
      (h.opens x List.mem_cons_self).skip_append, readElements, hread]
    simp only [hclose, if_true, List.reverse_cons, List.map_singleton]
  | cons y ys ih =>
    obtain ⟨rounds, rfl⟩ := Nat.exists_eq_succ_of_ne_zero (Nat.ne_of_gt (Nat.zero_lt_of_lt hrounds))
    have hread := h.reads x List.mem_cons_self _ (ends_cons (.inl rfl)
      ('\n' :: (commaLines indent ((y :: ys).map text) ++ '\n' :: (outer ++ closing :: rest))))
    have hlater := ih h.tail (Nat.lt_of_succ_lt_succ hrounds) (value x :: found)
    have hbefore : isSpace ',' = false := by decide
    rw [List.map_cons, List.map_cons, commaLines_cons_cons, ← List.map_cons, List.append_assoc,
      List.append_assoc, List.cons_append, List.cons_append, skip_of_blank hindent,
      (h.opens x List.mem_cons_self).skip_append, readElements, hread]
    simp only [skip_cons hbefore, hcomma, if_false, if_true, skip_newline, hlater]
    simp

/-- What stands between brackets is read element by element. -/
theorem readEnclosed_commaLines (hindent : ∀ c ∈ indent, isSpace c = true)
    (houter : ∀ c ∈ outer, isSpace c = true) (hspace : isSpace closing = false)
    (hcomma : ',' ≠ closing) {x : α} {xs : List α}
    (h : ReadsEach element text value closing (x :: xs)) {size : Nat} (hsize : xs.length < size)
    (rest : List Char) :
    readEnclosed element closing size
        ('\n' :: (commaLines indent ((x :: xs).map text) ++ '\n' :: (outer ++ closing :: rest))) =
      some ((x :: xs).map value, rest) := by
  have hread := readElements_commaLines hindent houter hspace hcomma h hsize [] rest
  have hx := h.opens x List.mem_cons_self
  have hskip := hx.skip_append
  obtain ⟨c, hc, -, hne⟩ := hx
  obtain ⟨s, hs⟩ := List.head?_eq_some_iff.mp hc
  -- the first element tells that the bracket is not closed at once
  obtain ⟨s', hs'⟩ : ∃ s', skip (commaLines indent ((x :: xs).map text) ++
      '\n' :: (outer ++ closing :: rest)) = c :: s' := by
    rw [List.map_cons, commaLines, List.append_assoc, List.append_assoc, skip_of_blank hindent,
      hskip, hs]
    exact ⟨_, rfl⟩
  rw [readEnclosed, skip_newline, hs']
  simp only [hne, if_false]
  rw [← hs', hread]
  rfl

end Brackets

/-! ### Data -/

/-- An entry of an object: its name, a colon and its value. -/
def entryText (indent : String) (e : String × Datum) : List Char :=
  (quote e.1).toList ++ ':' :: ' ' :: (write indent e.2).toList

/-- The elements of a list stand on lines of their own. -/
theorem toList_writeItems (indent : String) (xs : List Datum) :
    (writeItems indent xs).toList =
      commaLines indent.toList (xs.map fun x => (write indent x).toList) := by
  induction xs with
  | nil => rfl
  | cons x xs ih =>
    cases xs with
    | nil => simp [writeItems, commaLines]
    | cons y ys =>
      rw [List.map_cons] at ih
      rw [writeItems, List.map_cons, List.map_cons, commaLines_cons_cons, ← ih]
      simp

/-- The entries of an object stand on lines of their own. -/
theorem toList_writeEntries (indent : String) (es : List (String × Datum)) :
    (writeEntries indent es).toList = commaLines indent.toList (es.map (entryText indent)) := by
  induction es with
  | nil => rfl
  | cons e es ih =>
    cases es with
    | nil => simp [writeEntries, commaLines, entryText]
    | cons e' es =>
      rw [List.map_cons] at ih
      rw [writeEntries, List.map_cons, List.map_cons, commaLines_cons_cons, ← ih]
      simp [entryText]

/-- Lines between brackets, two spaces further in. -/
def bracketed (indent : String) (opening closing : Char) (texts : List (List Char)) : List Char :=
  opening :: '\n' :: (commaLines (indent ++ "  ").toList texts ++
    '\n' :: (indent.toList ++ [closing]))

/-- A list that is not empty stands between square brackets, further in. -/
theorem toList_write_array (indent : String) (x : Datum) (xs : List Datum) :
    (write indent (.array (x :: xs))).toList =
      bracketed indent '[' ']' ((x :: xs).map fun y => (write (indent ++ "  ") y).toList) := by
  rw [write, bracketed, ← toList_writeItems]
  simp

/-- A map that is not empty stands between braces, further in. -/
theorem toList_write_object (indent : String) (e : String × Datum) (es : List (String × Datum)) :
    (write indent (.object (e :: es))).toList =
      bracketed indent '\x7b' '\x7d' ((e :: es).map (entryText (indent ++ "  "))) := by
  rw [write, bracketed, ← toList_writeEntries]
  simp

/-- A record that is not empty stands between braces, further in. -/
theorem toList_write_record (indent : String) (e : String × Datum) (es : List (String × Datum)) :
    (write indent (.record (e :: es))).toList =
      bracketed indent '\x7b' '\x7d' ((e :: es).map (entryText (indent ++ "  "))) := by
  rw [write, bracketed, ← toList_writeEntries]
  simp

/-- A digit is no white space. -/
theorem not_isSpace_of_isDigit {c : Char} (h : c.isDigit = true) : isSpace c = false := by
  cases hspace : isSpace c with
  | false => rfl
  | true =>
    simp only [isSpace, Bool.or_eq_true, beq_iff_eq] at hspace
    rcases hspace with ((rfl | rfl) | rfl) | rfl <;> exact absurd h (by decide)

/-- A quoted text opens with a quote. -/
theorem opens_quote (s : String) {closing : Char} (h : '"' ≠ closing) :
    Opens closing (quote s).toList := ⟨'"', by simp [quote], by decide, h⟩

/-- No value starts with white space or a closing bracket. -/
theorem opens_write {shape : Shape} {d : Datum} (h : shape.Admits d) (indent : String) :
    Opens ']' (write indent d).toList := by
  cases h with
  | text s => exact opens_quote s (by decide)
  | flag b =>
    cases b
    · exact ⟨'f', by simp [write], by decide, by decide⟩
    · exact ⟨'t', by simp [write], by decide, by decide⟩
  | @count n h =>
    obtain ⟨c, s, hs⟩ := List.exists_cons_of_ne_nil (writeCount_ne_nil n)
    have hdigit : c.isDigit = true := isDigit_of_mem_writeCount (hs ▸ List.mem_cons_self)
    refine ⟨c, by simp [write, countText, hs], not_isSpace_of_isDigit hdigit, ?_⟩
    rintro rfl
    exact absurd hdigit (by decide)
  | nothing => exact ⟨'n', by simp [write], by decide, by decide⟩
  | present s => exact opens_quote s (by decide)
  | @list _ items _ => cases items <;> exact ⟨'[', by simp [write], by decide, by decide⟩
  | @dict _ entries _ => cases entries <;> exact ⟨'\x7b', by simp [write], by decide, by decide⟩
  | @record _ _ entries _ _ _ _ =>
    cases entries <;> exact ⟨'\x7b', by simp [write], by decide, by decide⟩

/-- The value of a field is read for the field's shape. -/
theorem readField_of_lookup {size : Nat} {fields : List (String × Shape)} {name : String}
    {shape : Shape} (h : fields.lookup name = some shape) (s : List Char) :
    readField size fields name s = (read size shape s).map fun (d, rest) => (some d, rest) := by
  induction fields with
  | nil => cases h
  | cons field fields ih =>
    obtain ⟨field, shape'⟩ := field
    rw [List.lookup_cons] at h
    rw [readField]
    by_cases hname : field = name
    · subst hname
      simp at h
      simp [h]
    · have hne : (name == field) = false := beq_eq_false_iff_ne.mpr (Ne.symm hname)
      rw [hne] at h
      rw [if_neg hname, ih h]

/-- An entry is read when its value is. -/
theorem readEntry_entryText {α : Type} {value : String → List Char → Option (α × List Char)}
    {indent : String} {e : String × Datum} {a : α} {rest : List Char}
    (hopens : Opens ']' (write indent e.2).toList)
    (h : value e.1 ((write indent e.2).toList ++ rest) = some (a, rest)) :
    readEntry value (entryText indent e ++ rest) = some ((e.1, a), rest) := by
  have hcolon : isSpace ':' = false := by decide
  have hblank (s : List Char) : skip (' ' :: s) = skip s := by
    have hspace : ∀ c ∈ [' '], isSpace c = true := List.forall_mem_singleton.mpr rfl
    exact skip_of_blank hspace s
  simp [readEntry, entryText, readQuoted_quote, skip_cons hcolon, hblank, hopens.skip_append, h]

/-- White space is still white space two spaces further in. -/
theorem isSpace_deeper {indent : String} (h : ∀ c ∈ indent.toList, isSpace c = true) :
    ∀ c ∈ (indent ++ "  ").toList, isSpace c = true := by
  intro c hc
  rw [String.toList_append, List.mem_append] at hc
  rcases hc with hc | hc
  · exact h c hc
  · have hspaces : "  ".toList.all isSpace = true := by decide
    exact List.all_eq_true.mp hspaces c hc

/-- No text is longer than the lines it is one of. -/
theorem length_le_of_mem {indent t : List Char} {ts : List (List Char)} (h : t ∈ ts) :
    t.length ≤ (commaLines indent ts).length := by
  induction ts with
  | nil => cases h
  | cons t' ts ih =>
    rw [commaLines, List.length_append, List.length_append]
    rcases List.mem_cons.mp h with rfl | h
    · omega
    · have hne : ts.isEmpty = false := List.isEmpty_eq_false_iff.mpr (List.ne_nil_of_mem h)
      have hlater := ih h
      simp only [hne, Bool.false_eq_true, if_false, List.length_cons]
      omega

/-- What is written between brackets is read back if every part of it is. -/
theorem readEnclosed_bracketed {α β : Type} (element : List Char → Option (β × List Char))
    {text : α → List Char} (value : α → β) {opening closing : Char} {indent : String}
    (hindent : ∀ c ∈ indent.toList, isSpace c = true) (hspace : isSpace closing = false)
    (hcomma : ',' ≠ closing) {x : α} {xs : List α} {size : Nat}
    (hsize : (bracketed indent opening closing ((x :: xs).map text)).length ≤ size)
    (hopens : ∀ y ∈ x :: xs, Opens closing (text y))
    (hread : ∀ y ∈ x :: xs, (text y).length ≤ size → ∀ rest, Ends rest →
      element (text y ++ rest) = some (value y, rest)) (rest : List Char) :
    readEnclosed element closing size
        ((bracketed indent opening closing ((x :: xs).map text) ++ rest).tail) =
      some ((x :: xs).map value, rest) := by
  have hlines : (commaLines (indent ++ "  ").toList ((x :: xs).map text)).length < size := by
    simp only [bracketed, List.length_cons, List.length_append] at hsize
    omega
  have heach : ReadsEach element text value closing (x :: xs) := by
    refine ⟨hopens, fun y hy => hread y hy ?_⟩
    exact Nat.le_of_lt (Nat.lt_of_le_of_lt (length_le_of_mem (List.mem_map_of_mem hy)) hlines)
  have hdeeper : (indent ++ "  ").toList ≠ [] := by simp
  have hcount := length_le_commaLines hdeeper ((x :: xs).map text)
  rw [List.length_map, List.length_cons] at hcount
  have hrounds : xs.length < size := by omega
  have hread := readEnclosed_commaLines (isSpace_deeper hindent) hindent hspace hcomma heach hrounds
    rest
  simpa [bracketed] using hread

/-- The entries of an object are read back if their values are. -/
theorem readEnclosed_entries {α : Type} (value : String → List Char → Option (α × List Char))
    (given : Datum → α) {indent : String} (hindent : ∀ c ∈ indent.toList, isSpace c = true)
    {e : String × Datum} {es : List (String × Datum)} {size : Nat}
    (hsize : (bracketed indent '\x7b' '\x7d'
      ((e :: es).map (entryText (indent ++ "  ")))).length ≤ size)
    (hopens : ∀ e' ∈ e :: es, Opens ']' (write (indent ++ "  ") e'.2).toList)
    (hread : ∀ e' ∈ e :: es, (write (indent ++ "  ") e'.2).toList.length ≤ size →
      ∀ rest, Ends rest →
        value e'.1 ((write (indent ++ "  ") e'.2).toList ++ rest) = some (given e'.2, rest))
    (rest : List Char) :
    readEnclosed (readEntry value) '\x7d' size ((bracketed indent '\x7b' '\x7d'
        ((e :: es).map (entryText (indent ++ "  "))) ++ rest).tail) =
      some ((e :: es).map fun e' => (e'.1, given e'.2), rest) := by
  refine readEnclosed_bracketed (readEntry value) (fun e' => (e'.1, given e'.2)) hindent (by decide)
    (by decide) hsize (fun e' _ => ?_) (fun e' he' hlength rest hrest => ?_) rest
  · exact ⟨'"', by simp [entryText, quote], by decide, by decide⟩
  · refine readEntry_entryText (hopens e' he') (hread e' he' ?_ rest hrest)
    simp only [entryText, List.length_append, List.length_cons] at hlength
    omega

/-- The datum is read back for the shape from a text of bounded length, wherever it stands and
whatever ends it. -/
def ReadsBack (size : Nat) (shape : Shape) (d : Datum) : Prop :=
  ∀ ⦃indent : String⦄, (∀ c ∈ indent.toList, isSpace c = true) →
    (write indent d).toList.length ≤ size → ∀ ⦃rest : List Char⦄, Ends rest →
      read size shape ((write indent d).toList ++ rest) = some (d, rest)

section ReadsBack

variable {size : Nat}

/-- A text that may be missing is read back. -/
theorem readsBack_present (s : String) :
    ReadsBack size (.optional .text) (.present (.text s)) := by
  intro indent _ _ rest _
  have htext : read size .text ((quote s).toList ++ rest) = some (.text s, rest) := by
    simp [read, readQuoted_quote]
  rw [write, write, read]
  · rw [htext]
    rfl
  · intro s' hs'
    simp [quote] at hs'

/-- A list is read back if its items are. -/
theorem readsBack_list {item : Shape} {items : List Datum} (h : ∀ d ∈ items, item.Admits d)
    (ih : ∀ d ∈ items, ReadsBack size item d) :
    ReadsBack size (.list item) (.array items) := by
  intro indent hindent hsize rest _
  cases items with
  | nil => simp [read, write, readEnclosed, skip, isSpace]
  | cons x xs =>
    rw [toList_write_array] at hsize ⊢
    have hitems := readEnclosed_bracketed (read size item) id hindent
      (by decide) (by decide) hsize (fun y hy => opens_write (h y hy) _)
      (fun y hy hlength rest hrest => ih y hy (isSpace_deeper hindent) hlength hrest) rest
    rw [bracketed, List.cons_append] at hitems ⊢
    rw [List.tail_cons, List.map_id] at hitems
    rw [read, hitems]
    rfl

/-- A map is read back if its values are. -/
theorem readsBack_dict {value : Shape} {entries : List (String × Datum)}
    (h : ∀ e ∈ entries, value.Admits e.2) (ih : ∀ e ∈ entries, ReadsBack size value e.2) :
    ReadsBack size (.dict value) (.object entries) := by
  intro indent hindent hsize rest _
  cases entries with
  | nil => simp [read, write, readEnclosed, skip, isSpace]
  | cons e es =>
    rw [toList_write_object] at hsize ⊢
    have hentries := readEnclosed_entries (fun _ => read size value) id hindent hsize
      (fun e' he' => opens_write (h e' he') _)
      (fun e' he' hlength rest hrest => ih e' he' (isSpace_deeper hindent) hlength hrest) rest
    rw [bracketed, List.cons_append] at hentries ⊢
    rw [List.tail_cons] at hentries
    rw [read, hentries]
    simp

/-- A record is read back if its fields are. -/
theorem readsBack_record {type : String} {fields : List (String × Shape)}
    {entries : List (String × Datum)} (hdistinct : (fields.map Prod.fst).Nodup)
    (horder : (entries.map Prod.fst).Sublist (fields.map Prod.fst))
    (h : ∀ e ∈ entries, ∀ shape, fields.lookup e.1 = some shape → shape.Admits e.2)
    (ih : ∀ e ∈ entries, ∀ shape, fields.lookup e.1 = some shape → ReadsBack size shape e.2) :
    ReadsBack size (.record type fields) (.record entries) := by
  intro indent hindent hsize rest _
  cases entries with
  | nil => simp [read, write, readEnclosed, skip, isSpace, knownFields]
  | cons e es =>
    rw [toList_write_record] at hsize ⊢
    have hknown := knownFields_given hdistinct horder
    have hentries := readEnclosed_entries (readField size fields) some hindent hsize
      (fun e' he' => ?_) (fun e' he' hlength rest hrest => ?_) rest
    · rw [bracketed, List.cons_append] at hentries ⊢
      rw [List.tail_cons] at hentries
      rw [read, hentries]
      simp only [Option.bind_some, hknown, Option.map_some]
    · obtain ⟨shape, hshape⟩ := exists_lookup_of_entry horder he'
      exact opens_write (h e' he' shape hshape) _
    · obtain ⟨shape, hshape⟩ := exists_lookup_of_entry horder he'
      rw [readField_of_lookup hshape,
        ih e' he' shape hshape (isSpace_deeper hindent) hlength hrest]
      rfl

/-- **What is written as JSON is read back.** -/
theorem readsBack {shape : Shape} {d : Datum} (h : shape.Admits d) : ReadsBack size shape d := by
  induction h with
  | text s => intro indent _ _ rest _; simp [read, write, readQuoted_quote]
  | flag b => intro indent _ _ rest _; cases b <;> simp [read, write]
  | count h => intro indent _ _ rest hrest; simp [read, write, readCount_countText h hrest]
  | nothing => intro indent _ _ rest _; simp [read, write]
  | present s => exact readsBack_present s
  | list h ih => exact readsBack_list h ih
  | dict h ih => exact readsBack_dict h ih
  | record _ hdistinct horder h ih => exact readsBack_record hdistinct horder h ih

end ReadsBack

/-- Data of a shape is parsed for that shape as what was written. -/
theorem parse?_render {shape : Shape} {d : Datum} (h : shape.Admits d) :
    parse? shape (render d) = some d := by
  have hindent : ∀ c ∈ "".toList, isSpace c = true := nofun
  have hread := readsBack h hindent (Nat.le_refl _) (show Ends [] from nofun)
  have hskip := (opens_write h "").skip_append []
  rw [List.append_nil] at hread hskip
  rw [parse?]
  simp only [render, hskip, hread]
  rfl

/-- A record is no list. -/
theorem parse?_list_render_record (item : Shape) (entries : List (String × Datum)) :
    parse? (.list item) (render (.record entries)) = none := by
  cases entries <;> simp [parse?, render, write, skip, isSpace, read]

end StoryTape.Artifact.Json
