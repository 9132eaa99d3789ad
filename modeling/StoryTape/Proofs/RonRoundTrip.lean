import StoryTape.Proofs.RonWords

/-!
# What is written as RON is read back

Data of a shape, written as RON, is read for that shape as what it was, up to what follows it: a
comma, or the parenthesis of a value that is marked as being there.
-/

namespace StoryTape.Artifact.Ron

open Text

/-! ### Elements between brackets -/

/-- Texts one per line, each followed by a comma. -/
def endedLines (indent : List Char) (ts : List (List Char)) : List Char :=
  ts.flatMap fun t => indent ++ (t ++ [',', '\n'])

/-- The first of the texts is a line with a comma. -/
theorem endedLines_cons (indent t : List Char) (ts : List (List Char)) :
    endedLines indent (t :: ts) = indent ++ (t ++ ',' :: '\n' :: endedLines indent ts) := by
  simp [endedLines]

/-- There are at least as many characters as texts. -/
theorem length_le_endedLines (indent : List Char) (ts : List (List Char)) :
    ts.length ≤ (endedLines indent ts).length := by
  induction ts with
  | nil => exact Nat.le_refl 0
  | cons t ts ih =>
    rw [endedLines_cons]
    simp only [List.length_append, List.length_cons]
    omega

/-- No text is longer than the lines it is one of. -/
theorem length_le_of_mem {indent t : List Char} {ts : List (List Char)} (h : t ∈ ts) :
    t.length ≤ (endedLines indent ts).length := by
  induction ts with
  | nil => cases h
  | cons t' ts ih =>
    rw [endedLines_cons]
    simp only [List.length_append, List.length_cons]
    rcases List.mem_cons.mp h with rfl | h
    · omega
    · have hlater := ih h
      omega

/-- A new line is skipped. -/
theorem skip_newline (s : List Char) : skip ('\n' :: s) = skip s := by
  have hline : ∀ c ∈ ['\n'], isSpace c = true := List.forall_mem_singleton.mpr rfl
  exact skip_of_blank hline s

section Brackets

variable {α β : Type} {element : List Char → Option (β × List Char)} {text : α → List Char}
  {value : α → β} {closing : Char} {indent outer : List Char}

/-- Elements are read line by line up to the closing bracket. -/
theorem elements_endedLines (hindent : ∀ c ∈ indent, isSpace c = true)
    (houter : ∀ c ∈ outer, isSpace c = true) (hspace : isSpace closing = false)
    (hslash : closing ≠ '/') {xs : List α} (hopens : ∀ x ∈ xs, Opens closing (text x))
    (hread : ∀ x ∈ xs, ∀ rest, Ends rest → element (text x ++ rest) = some (value x, rest))
    {rounds : Nat} (hrounds : xs.length < rounds) (found : List β) (rest : List Char) :
    elements element closing rounds found
        ('\n' :: (endedLines indent (xs.map text) ++ (outer ++ closing :: rest))) =
      some (found.reverse ++ xs.map value, closing :: rest) := by
  induction xs generalizing rounds found with
  | nil =>
    obtain ⟨rounds, rfl⟩ := Nat.exists_eq_succ_of_ne_zero (Nat.ne_of_gt hrounds)
    have hclose : skip ('\n' :: (endedLines indent [] ++ (outer ++ closing :: rest))) =
        closing :: rest := by
      rw [skip_newline, endedLines, List.flatMap_nil, List.nil_append, skip_of_blank houter,
        skip_cons hspace hslash]
    simp [elements, hclose]
  | cons x xs ih =>
    obtain ⟨rounds, rfl⟩ := Nat.exists_eq_succ_of_ne_zero (Nat.ne_of_gt (Nat.zero_lt_of_lt hrounds))
    have hx := hopens x List.mem_cons_self
    have hlater := ih (fun y hy => hopens y (List.mem_cons_of_mem x hy))
      (fun y hy => hread y (List.mem_cons_of_mem x hy)) (Nat.lt_of_succ_lt_succ hrounds)
      (value x :: found)
    have hfirst := hread x List.mem_cons_self _ (ends_cons (.inl rfl)
      ('\n' :: (endedLines indent (xs.map text) ++ (outer ++ closing :: rest))))
    have hcomma (s : List Char) : skip (',' :: s) = ',' :: s := skip_cons (by decide) (by decide) s
    have hskip := hx.skip_append
      (',' :: '\n' :: (endedLines indent (xs.map text) ++ (outer ++ closing :: rest)))
    obtain ⟨c, hc, -, -, hne⟩ := hx
    have hhead : ¬ ((text x ++ ',' :: '\n' ::
        (endedLines indent (xs.map text) ++ (outer ++ closing :: rest))).head? = some closing) := by
      rw [List.head?_append, hc]
      simpa using hne
    rw [List.map_cons, endedLines_cons, List.append_assoc, List.append_assoc, List.cons_append,
      List.cons_append, elements]
    simp only [skip_newline, skip_of_blank hindent, hskip, hhead, if_false, hfirst, hcomma, hlater]
    simp

/-- What stands between brackets is read element by element. -/
theorem enclosed_endedLines (hindent : ∀ c ∈ indent, isSpace c = true)
    (houter : ∀ c ∈ outer, isSpace c = true) (hspace : isSpace closing = false)
    (hslash : closing ≠ '/') {xs : List α} (hopens : ∀ x ∈ xs, Opens closing (text x))
    (hread : ∀ x ∈ xs, ∀ rest, Ends rest → element (text x ++ rest) = some (value x, rest))
    {size : Nat} (hsize : xs.length ≤ size) (rest : List Char) :
    enclosed element closing size
        ('\n' :: (endedLines indent (xs.map text) ++ (outer ++ closing :: rest))) =
      some (xs.map value, rest) := by
  rw [enclosed, elements_endedLines hindent houter hspace hslash hopens hread
    (Nat.lt_succ_of_le hsize)]
  rfl

end Brackets

/-! ### Data -/

/-- A key, a colon and a value. -/
def keyedText (key : String → List Char) (indent : String) (e : String × Datum) : List Char :=
  key e.1 ++ ':' :: ' ' :: (write indent e.2).toList

/-- An entry of a map. -/
def entryText : String → String × Datum → List Char := keyedText fun name => (quote name).toList

/-- A field of a record. -/
def fieldText : String → String × Datum → List Char := keyedText String.toList

/-- The elements of a list stand on lines of their own. -/
theorem toList_writeItems (indent : String) (xs : List Datum) :
    (writeItems indent xs).toList =
      endedLines indent.toList (xs.map fun x => (write indent x).toList) := by
  induction xs with
  | nil => rfl
  | cons x xs ih =>
    rw [writeItems, List.map_cons, endedLines_cons, ← ih]
    simp

/-- The entries of a map stand on lines of their own. -/
theorem toList_writeEntries (indent : String) (es : List (String × Datum)) :
    (writeEntries indent es).toList = endedLines indent.toList (es.map (entryText indent)) := by
  induction es with
  | nil => rfl
  | cons e es ih =>
    rw [writeEntries, List.map_cons, endedLines_cons, ← ih]
    simp [entryText, keyedText]

/-- The fields of a record stand on lines of their own. -/
theorem toList_writeFields (indent : String) (es : List (String × Datum)) :
    (writeFields indent es).toList = endedLines indent.toList (es.map (fieldText indent)) := by
  induction es with
  | nil => rfl
  | cons e es ih =>
    rw [writeFields, List.map_cons, endedLines_cons, ← ih]
    simp [fieldText, keyedText]

/-- Lines between brackets, four spaces further in. -/
def bracketed (indent : String) (opening closing : Char) (texts : List (List Char)) : List Char :=
  opening :: '\n' :: (endedLines (indent ++ "    ").toList texts ++ (indent.toList ++ [closing]))

/-- A list that is not empty stands between square brackets, further in. -/
theorem toList_write_array (indent : String) (x : Datum) (xs : List Datum) :
    (write indent (.array (x :: xs))).toList =
      bracketed indent '[' ']' ((x :: xs).map fun y => (write (indent ++ "    ") y).toList) := by
  rw [write, bracketed, ← toList_writeItems]
  simp

/-- A map that is not empty stands between braces, further in. -/
theorem toList_write_object (indent : String) (e : String × Datum) (es : List (String × Datum)) :
    (write indent (.object (e :: es))).toList =
      bracketed indent '\x7b' '\x7d' ((e :: es).map (entryText (indent ++ "    "))) := by
  rw [write, bracketed, ← toList_writeEntries]
  simp

/-- A record that is not empty stands between parentheses, further in. -/
theorem toList_write_record (indent : String) (e : String × Datum) (es : List (String × Datum)) :
    (write indent (.record (e :: es))).toList =
      bracketed indent '(' ')' ((e :: es).map (fieldText (indent ++ "    "))) := by
  rw [write, bracketed, ← toList_writeFields]
  simp

/-- A digit is no white space. -/
theorem not_isSpace_of_isDigit {c : Char} (h : c.isDigit = true) : isSpace c = false := by
  cases hspace : isSpace c with
  | false => rfl
  | true =>
    obtain ⟨hlow, hhigh⟩ : 48 ≤ c.toNat ∧ c.toNat ≤ 57 := by
      rw [Char.isDigit, Bool.and_eq_true, decide_eq_true_eq, decide_eq_true_eq] at h
      exact h
    simp [isSpace] at hspace
    omega

/-- No value starts with white space, a comment, a closing bracket or the sign of an attribute. -/
theorem opens_write {shape : Shape} {d : Datum} (h : shape.Admits d) (indent : String)
    {closing : Char} (hclosing : closing = ']' ∨ closing = '#') :
    Opens closing (write indent d).toList := by
  obtain ⟨c, hc, hspace, hslash, hbracket, hsign⟩ : ∃ c, (write indent d).toList.head? = some c ∧
      isSpace c = false ∧ c ≠ '/' ∧ c ≠ ']' ∧ c ≠ '#' := by
    cases h with
    | text s => exact ⟨'"', by simp [write, quote], by decide⟩
    | flag b =>
      cases b
      · exact ⟨'f', by simp [write], by decide⟩
      · exact ⟨'t', by simp [write], by decide⟩
    | @count n h =>
      obtain ⟨c, s, hs⟩ := List.exists_cons_of_ne_nil (writeCount_ne_nil n)
      have hdigit : c.isDigit = true := isDigit_of_mem_writeCount (hs ▸ List.mem_cons_self)
      refine ⟨c, by simp [write, countText, hs], not_isSpace_of_isDigit hdigit, ?_, ?_, ?_⟩ <;>
        rintro rfl <;> exact absurd hdigit (by decide)
    | nothing => exact ⟨'N', by simp [write], by decide⟩
    | present s => exact ⟨'S', by simp [write], by decide⟩
    | @list _ items _ => cases items <;> exact ⟨'[', by simp [write], by decide⟩
    | @dict _ entries _ => cases entries <;> exact ⟨'\x7b', by simp [write], by decide⟩
    | @record _ _ entries _ _ _ _ => cases entries <;> exact ⟨'(', by simp [write], by decide⟩
  refine ⟨c, hc, hspace, hslash, ?_⟩
  rcases hclosing with rfl | rfl
  · exact hbracket
  · exact hsign

/-- The value of a field is read for the field's shape. -/
theorem readField_of_lookup {x : Extensions} {size levels : Nat} {fields : List (String × Shape)}
    {name : String} {shape : Shape} (h : fields.lookup name = some shape) (s : List Char) :
    readField x size fields levels name s =
      (read x size shape levels s).map fun (d, rest) => (some d, rest) := by
  induction fields with
  | nil => cases h
  | cons field fields ih =>
    obtain ⟨field, shape'⟩ := field
    rw [List.lookup_cons] at h
    rw [readField]
    by_cases hname : field = name
    · subst hname
      simp at h
      simp [h]
    · have hne : (name == field) = false := beq_eq_false_iff_ne.mpr (Ne.symm hname)
      rw [hne] at h
      rw [if_neg hname, ih h]

/-- A keyed value is read when its key and its value are. -/
theorem entry_keyedText {κ α : Type} {key : List Char → Option (κ × List Char)}
    {value : κ → List Char → Option (α × List Char)} {write? : String → List Char}
    {indent : String} {e : String × Datum} {k : κ} {a : α} {rest : List Char}
    (hkey : ∀ s, key (write? e.1 ++ ':' :: s) = some (k, ':' :: s))
    (hopens : Opens ']' (write indent e.2).toList)
    (h : value k ((write indent e.2).toList ++ rest) = some (a, rest)) :
    entry key value (keyedText write? indent e ++ rest) = some ((k, a), rest) := by
  have hcolon (s : List Char) : skip (':' :: s) = ':' :: s := skip_cons (by decide) (by decide) s
  have hblank (s : List Char) : skip (' ' :: s) = skip s := by
    have hspace : ∀ c ∈ [' '], isSpace c = true := List.forall_mem_singleton.mpr rfl
    exact skip_of_blank hspace s
  simp [entry, keyedText, hkey, hcolon, hblank, hopens.skip_append, h]

/-- White space is still white space four spaces further in. -/
theorem isSpace_deeper {indent : String} (h : ∀ c ∈ indent.toList, isSpace c = true) :
    ∀ c ∈ (indent ++ "    ").toList, isSpace c = true := by
  intro c hc
  rw [String.toList_append, List.mem_append] at hc
  rcases hc with hc | hc
  · exact h c hc
  · have hspaces : "    ".toList.all isSpace = true := by decide
    exact List.all_eq_true.mp hspaces c hc

/-- What is written between brackets is read back if every part of it is. -/
theorem enclosed_bracketed {α β : Type} (element : List Char → Option (β × List Char))
    {text : α → List Char} (value : α → β) {opening closing : Char} {indent : String}
    (hindent : ∀ c ∈ indent.toList, isSpace c = true) (hspace : isSpace closing = false)
    (hslash : closing ≠ '/') {xs : List α} {size : Nat}
    (hsize : (bracketed indent opening closing (xs.map text)).length ≤ size)
    (hopens : ∀ x ∈ xs, Opens closing (text x))
    (hread : ∀ x ∈ xs, (text x).length ≤ size → ∀ rest, Ends rest →
      element (text x ++ rest) = some (value x, rest)) (rest : List Char) :
    enclosed element closing size ((bracketed indent opening closing (xs.map text) ++ rest).tail) =
      some (xs.map value, rest) := by
  have hlines : (endedLines (indent ++ "    ").toList (xs.map text)).length ≤ size := by
    simp only [bracketed, List.length_cons, List.length_append] at hsize
    omega
  have hcount := length_le_endedLines (indent ++ "    ").toList (xs.map text)
  rw [List.length_map] at hcount
  have heach : ∀ x ∈ xs, ∀ rest, Ends rest → element (text x ++ rest) = some (value x, rest) :=
    fun x hx => hread x hx (Nat.le_trans (length_le_of_mem (List.mem_map_of_mem hx)) hlines)
  have hread := enclosed_endedLines (isSpace_deeper hindent) hindent hspace hslash hopens heach
    (Nat.le_trans hcount hlines) rest
  simpa [bracketed] using hread

/-- A text that is marked as being there is read. -/
theorem marked?_quote (x : Extensions) {value : List Char → Option (Datum × List Char)} {s : String}
    {d : Datum} (h : ∀ rest, value ((quote s).toList ++ rest) = some (d, rest))
    (rest : List Char) :
    marked? x value ("Some".toList ++ '(' :: ((quote s).toList ++ ')' :: rest)) =
      some (d, rest) := by
  have hword := word?_append "Some" (s := '(' :: ((quote s).toList ++ ')' :: rest))
    (by simp only [List.head?_cons, Option.any_some]; decide)
  have hparen {c : Char} (hc : c = '(' ∨ c = ')') (s : List Char) : skip (c :: s) = c :: s := by
    rcases hc with rfl | rfl <;> exact skip_cons (by decide) (by decide) s
  have hopens : Opens ']' (quote s).toList :=
    ⟨'"', by simp [quote], by decide, by decide, by decide⟩
  rw [marked?, hword]
  simp [hparen, hopens.skip_append, h, closeMarked]

/-- A record is read from its parenthesis on when it need not carry a name. -/
theorem read_record {x : Extensions} (hx : x.explicitNames = false) (size : Nat) (type : String)
    (fields : List (String × Shape)) (levels : Nat) (s : List Char) :
    read x size (.record type fields) levels ('(' :: s) =
      (enclosed (entry fieldName? (readField x size fields (levels - 2))) ')' size s).bind
        fun (entries, rest) => (knownFields entries).map fun known => (.record known, rest) := by
  have hparen : isIdentPart '(' = false := by decide
  have hskip : skip ('(' :: s) = '(' :: s := skip_cons (by decide) (by decide) s
  have hname : (recordName? x type ('(' :: s)).map skip = some ('(' :: s) := by
    simp [recordName?, hparen, hx, hskip]
  rw [read, hname]
  rfl

/-- The datum is read back for the shape from a text of bounded length, wherever it stands and
whatever ends it. -/
def ReadsBack (x : Extensions) (size : Nat) (shape : Shape) (d : Datum) : Prop :=
  ∀ ⦃indent : String⦄, (∀ c ∈ indent.toList, isSpace c = true) →
    (write indent d).toList.length ≤ size → ∀ ⦃rest : List Char⦄, Ends rest → ∀ levels : Nat,
      read x size shape levels ((write indent d).toList ++ rest) = some (d, rest)

section ReadsBack

variable {x : Extensions} {size : Nat}

/-- A text is read back. -/
theorem readsBack_text (s : String) : ReadsBack x size .text (.text s) := by
  intro indent _ hsize rest _ levels
  rw [write] at hsize ⊢
  simp [read, text?_quote s hsize]

/-- A truth value is read back. -/
theorem readsBack_flag (b : Bool) : ReadsBack x size .flag (.flag b) := by
  intro indent _ _ rest hrest levels
  cases b with
  | true =>
    have hword := word?_append "true" hrest.not_isIdentPart
    rw [write, if_pos rfl, read, hword]
  | false =>
    have hother : word? "true" ("false".toList ++ rest) = none := by rfl
    have hword := word?_append "false" hrest.not_isIdentPart
    rw [write, if_neg Bool.false_ne_true, read, hother, hword]
    rfl

/-- A count is read back if it is a machine word. -/
theorem readsBack_count {n : Nat} (h : n < wordSize) : ReadsBack x size .count (.number n) := by
  intro indent _ _ rest hrest levels
  simp [read, write, readCount_countText h hrest]

/-- No value is read back as none. -/
theorem readsBack_nothing (value : Shape) : ReadsBack x size (.optional value) .nothing := by
  intro indent _ _ rest hrest levels
  have hword := word?_append "None" hrest.not_isIdentPart
  rw [write, read, hword]

/-- A text that may be missing is read back. -/
theorem readsBack_present (s : String) :
    ReadsBack x size (.optional .text) (.present (.text s)) := by
  intro indent _ hsize rest _ levels
  have hother : word? "None" ((write indent (.present (.text s))).toList ++ rest) = none := by
    simp [word?, mark?, write]
  have hlength : (quote s).toList.length ≤ size := by
    rw [write, write] at hsize
    simp only [String.toList_append, List.length_append] at hsize
    omega
  have hvalue (rest : List Char) : read x size .text (levels - 1) ((quote s).toList ++ rest) =
      some (.text s, rest) := by
    simp [read, text?_quote s hlength]
  have hmarked := marked?_quote x hvalue rest
  have htext : (write indent (.present (.text s))).toList ++ rest =
      "Some".toList ++ '(' :: ((quote s).toList ++ ')' :: rest) := by
    simp [write]
  rw [read, hother, htext, hmarked]
  rfl

/-- A list is read back if its items are. -/
theorem readsBack_list {item : Shape} {items : List Datum} (h : ∀ d ∈ items, item.Admits d)
    (ih : ∀ d ∈ items, ReadsBack x size item d) :
    ReadsBack x size (.list item) (.array items) := by
  intro indent hindent hsize rest _ levels
  cases items with
  | nil => simp [read, write, enclosed, elements, skip, skipFrom, isSpace]
  | cons y ys =>
    rw [toList_write_array] at hsize ⊢
    have hitems := enclosed_bracketed (read x size item (levels - 2)) id
      hindent (by decide) (by decide) hsize (fun z hz => opens_write (h z hz) _ (.inl rfl))
      (fun z hz hlength rest hrest => ih z hz (isSpace_deeper hindent) hlength hrest _) rest
    rw [bracketed, List.cons_append] at hitems ⊢
    rw [List.tail_cons, List.map_id] at hitems
    rw [read, hitems]
    rfl

/-- An entry of a map is read back if its value is. -/
theorem entry_entryText {value : Shape} {indent : String}
    (hindent : ∀ c ∈ indent.toList, isSpace c = true) {e : String × Datum}
    (h : value.Admits e.2) (ih : ReadsBack x size value e.2)
    (hlength : (entryText indent e).length ≤ size) {rest : List Char} (hrest : Ends rest)
    (levels : Nat) :
    entry (keyText? size) (fun _ => read x size value levels) (entryText indent e ++ rest) =
      some (e, rest) := by
  simp only [entryText, keyedText, List.length_append, List.length_cons] at hlength
  have hquote : (quote e.1).toList.length ≤ size := by omega
  refine entry_keyedText (fun s => ?_) (opens_write h _ (.inl rfl))
    (ih hindent (by omega) hrest _)
  simp [keyText?, text?_quote e.1 hquote]

/-- A map is read back if its values are. -/
theorem readsBack_dict {value : Shape} {entries : List (String × Datum)}
    (h : ∀ e ∈ entries, value.Admits e.2) (ih : ∀ e ∈ entries, ReadsBack x size value e.2) :
    ReadsBack x size (.dict value) (.object entries) := by
  intro indent hindent hsize rest _ levels
  cases entries with
  | nil => simp [read, write, enclosed, elements, skip, skipFrom, isSpace]
  | cons e es =>
    rw [toList_write_object] at hsize ⊢
    have hentries := enclosed_bracketed
      (entry (keyText? size) fun _ => read x size value (levels - 2)) id
      hindent (by decide) (by decide) hsize
      (fun e' _ => ⟨'"', by simp [entryText, keyedText, quote], by decide, by decide, by decide⟩)
      (fun e' he' hlength rest hrest =>
        entry_entryText (isSpace_deeper hindent) (h e' he') (ih e' he') hlength hrest _) rest
    rw [bracketed, List.cons_append] at hentries ⊢
    rw [List.tail_cons, List.map_id] at hentries
    rw [read, hentries]
    rfl

/-- A field of a record is read back if its value is. -/
theorem entry_fieldText {fields : List (String × Shape)} {indent : String}
    (hindent : ∀ c ∈ indent.toList, isSpace c = true) {e : String × Datum}
    (hname : isFieldName e.1 = true) {shape : Shape} (hshape : fields.lookup e.1 = some shape)
    (h : shape.Admits e.2) (ih : ReadsBack x size shape e.2)
    (hlength : (fieldText indent e).length ≤ size) {rest : List Char} (hrest : Ends rest)
    (levels : Nat) :
    entry fieldName? (readField x size fields levels) (fieldText indent e ++ rest) =
      some ((e.1, some e.2), rest) := by
  simp only [fieldText, keyedText, List.length_append, List.length_cons] at hlength
  refine entry_keyedText (fun s => fieldName?_of_isFieldName hname s)
    (opens_write h _ (.inl rfl)) ?_
  rw [readField_of_lookup hshape, ih hindent (by omega) hrest]
  rfl

/-- A record is read back if its fields are, unless it has to carry its name. -/
theorem readsBack_record (hx : x.explicitNames = false) {type : String}
    {fields : List (String × Shape)} {entries : List (String × Datum)}
    (hnames : ∀ field ∈ fields, isFieldName field.1 = true)
    (hdistinct : (fields.map Prod.fst).Nodup)
    (horder : (entries.map Prod.fst).Sublist (fields.map Prod.fst))
    (h : ∀ e ∈ entries, ∀ shape, fields.lookup e.1 = some shape → shape.Admits e.2)
    (ih : ∀ e ∈ entries, ∀ shape, fields.lookup e.1 = some shape → ReadsBack x size shape e.2) :
    ReadsBack x size (.record type fields) (.record entries) := by
  intro indent hindent hsize rest _ levels
  cases entries with
  | nil =>
    have hclose : skip (')' :: rest) = ')' :: rest := skip_cons (by decide) (by decide) rest
    have htext : (write indent (.record [])).toList ++ rest = '(' :: ')' :: rest := by
      simp [write]
    rw [htext, read_record hx]
    simp [enclosed, elements, hclose, knownFields]
  | cons e es =>
    rw [toList_write_record] at hsize ⊢
    have hknown := knownFields_given hdistinct horder
    have hname : ∀ e' ∈ e :: es, isFieldName e'.1 = true := by
      intro e' he'
      obtain ⟨field, hfield, hsame⟩ :=
        List.mem_map.mp (horder.subset (List.mem_map_of_mem he'))
      exact hsame ▸ hnames field hfield
    have hentries := enclosed_bracketed
      (entry fieldName? (readField x size fields (levels - 2)))
      (fun e' => (e'.1, some e'.2)) hindent (by decide) (by decide) hsize
      (fun e' he' => opens_of_isFieldName (hname e' he') _)
      (fun e' he' hlength rest hrest => by
        obtain ⟨shape, hshape⟩ := exists_lookup_of_entry horder he'
        exact entry_fieldText (isSpace_deeper hindent) (hname e' he') hshape
          (h e' he' shape hshape) (ih e' he' shape hshape) hlength hrest _) rest
    rw [bracketed, List.cons_append] at hentries ⊢
    rw [List.tail_cons] at hentries
    rw [read_record hx, hentries]
    simp only [Option.bind_some, hknown, Option.map_some]

/-- **What is written as RON is read back**, unless records have to carry their names. -/
theorem readsBack (hx : x.explicitNames = false) {shape : Shape} {d : Datum}
    (h : shape.Admits d) : ReadsBack x size shape d := by
  induction h with
  | text s => exact readsBack_text s
  | flag b => exact readsBack_flag b
  | count h => exact readsBack_count h
  | @nothing value => exact readsBack_nothing value
  | present s => exact readsBack_present s
  | list h ih => exact readsBack_list h ih
  | dict h ih => exact readsBack_dict h ih
  | record hnames hdistinct horder h ih =>
    exact readsBack_record hx hnames hdistinct horder h ih

end ReadsBack

/-- A text that opens without a hash sign has no attributes in front. -/
theorem attributes?_of_opens {s : List Char} (h : Opens '#' s) (size rounds : Nat)
    (x : Extensions) : attributes? size rounds x s = some (x, s) := by
  obtain ⟨c, hc, -, -, hne⟩ := h
  obtain ⟨s, rfl⟩ := List.head?_eq_some_iff.mp hc
  cases rounds <;> simp [attributes?, hne]

/-- Data of a shape is parsed for that shape as what was written. -/
theorem parse?_render {shape : Shape} {d : Datum} (h : shape.Admits d) :
    parse? shape (render d) = some d := by
  have hopens := opens_write h "" (.inr rfl)
  have hindent : ∀ c ∈ "".toList, isSpace c = true := nofun
  have hread := readsBack (x := {}) rfl h hindent (Nat.le_refl _) (show Ends [] from nofun)
    maxLevels
  have hskip := hopens.skip_append []
  rw [List.append_nil] at hread hskip
  rw [parse?]
  simp only [render, hskip, attributes?_of_opens hopens, hread]
  rfl

/-- A record is no list. -/
theorem parse?_list_render_record (item : Shape) (entries : List (String × Datum)) :
    parse? (.list item) (render (.record entries)) = none := by
  have hhead : (render (.record entries)).toList.head? = some '(' := by
    cases entries <;> simp [render, write]
  obtain ⟨s, hs⟩ := List.head?_eq_some_iff.mp hhead
  have hskip : skip ('(' :: s) = '(' :: s := skip_cons (by decide) (by decide) s
  have hopens : Opens '#' ('(' :: s) := ⟨'(', rfl, by decide⟩
  rw [parse?]
  simp only [hs, hskip, attributes?_of_opens hopens]
  simp [read]

end StoryTape.Artifact.Ron
