import StoryTape.Artifact.Ron.Printer
import StoryTape.Artifact.Ron.Reader
import StoryTape.Proofs.Shapes
import StoryTape.Proofs.Texts

/-!
# Texts, counts and names of RON

A quoted text, a count and the name of a field are each read back up to what follows them. Texts
escape what cannot be shown by code points, a count ends with its last digit, and the names of
fields are words, which no quoted text starts like.
-/

namespace StoryTape.Artifact.Ron

open Text

/-! ### White space -/

/-- White space in front of a text is skipped. -/
theorem skip_of_blank {blank : List Char} (h : ∀ c ∈ blank, isSpace c = true) (s : List Char) :
    skip (blank ++ s) = skip s := by
  induction blank with
  | nil => rfl
  | cons c blank ih =>
    have hc : isSpace c = true := h c List.mem_cons_self
    have hslash : c ≠ '/' := by
      rintro rfl
      exact absurd hc (by decide)
    have hrest := ih fun c hc => h c (List.mem_cons_of_mem _ hc)
    rw [skip] at hrest ⊢
    rw [List.cons_append, ← hrest]
    simp [skipFrom, hslash, hc]

/-- Nothing is skipped in front of a character that opens neither white space nor a comment. -/
theorem skip_cons {c : Char} (hspace : isSpace c = false) (hslash : c ≠ '/') (s : List Char) :
    skip (c :: s) = c :: s := by
  simp [skip, skipFrom, hslash, hspace]

/-- The text starts with a character that opens neither white space nor a comment and is not the
closing one. -/
def Opens (closing : Char) (s : List Char) : Prop :=
  ∃ c, s.head? = some c ∧ isSpace c = false ∧ c ≠ '/' ∧ c ≠ closing

/-- Nothing is skipped in front of a text that opens. -/
theorem Opens.skip_append {closing : Char} {s : List Char} (h : Opens closing s)
    (rest : List Char) : skip (s ++ rest) = s ++ rest := by
  obtain ⟨c, hs, hspace, hslash, -⟩ := h
  obtain ⟨s, rfl⟩ := List.head?_eq_some_iff.mp hs
  exact skip_cons hspace hslash (s ++ rest)

/-- What follows a value: nothing, a comma or a closing parenthesis. -/
def Ends (s : List Char) : Prop := ∀ c ∈ s.head?, c = ',' ∨ c = ')'

/-- A comma or a closing parenthesis ends a value. -/
theorem ends_cons {c : Char} (h : c = ',' ∨ c = ')') (s : List Char) : Ends (c :: s) := by
  simpa [Ends] using h

/-- What follows a value starts with no character of a class that has no comma and no closing
parenthesis. -/
theorem Ends.head?_any {s : List Char} (h : Ends s) {p : Char → Bool} (hcomma : p ',' = false)
    (hparen : p ')' = false) : s.head?.any p = false := by
  cases s with
  | nil => rfl
  | cons c s =>
    rcases h c rfl with rfl | rfl
    · exact hcomma
    · exact hparen

/-- What ends a value goes on with no other mark. -/
theorem Ends.mark? {s : List Char} (h : Ends s) {mark : String} {c : Char}
    (hmark : mark.toList.head? = some c) (hcomma : c ≠ ',') (hparen : c ≠ ')') :
    mark? mark s = none := by
  obtain ⟨t, ht⟩ := List.head?_eq_some_iff.mp hmark
  rw [Ron.mark?, ht]
  cases s with
  | nil => rfl
  | cons d s =>
    rcases h d rfl with rfl | rfl
    · simp [hcomma]
    · simp [hparen]

/-! ### Texts -/

/-- A hexadecimal digit is no closing brace. -/
theorem ne_brace_of_mem_hexDigits {n : Nat} {d : Char} (h : d ∈ hexDigits n) : d ≠ '\x7d' := by
  have hdigits : ∀ k < 16, Nat.digitChar k ≠ '\x7d' := by decide
  obtain ⟨k, hk, rfl⟩ := exists_of_mem_toDigits h
  exact hdigits k hk

/-- A code point has at most six hexadecimal digits. -/
theorem length_hexDigits_le (c : Char) : (hexDigits c.toNat).length ≤ 6 := by
  rw [hexDigits, Nat.length_toDigits_le_iff (by decide) (by decide)]
  have hvalid : c.toNat.isValidChar := c.valid
  rw [Nat.isValidChar] at hvalid
  omega

/-- An escaped code point is read as its character. -/
theorem codeEscape?_hexDigits (c : Char) (s : List Char) :
    codeEscape? (hexDigits c.toNat ++ '\x7d' :: s) = some (c, s) := by
  have hlength := length_hexDigits_le c
  obtain ⟨room, hroom⟩ : ∃ room, 7 - (hexDigits c.toNat).length = room + 1 :=
    ⟨6 - (hexDigits c.toNat).length, by omega⟩
  have hdigits : (((hexDigits c.toNat) ++ '\x7d' :: s).take 7).takeWhile (· != '\x7d') =
      hexDigits c.toNat := by
    rw [List.take_append, List.take_of_length_le (by omega), hroom, List.take_succ_cons,
      List.takeWhile_append_of_pos]
    · simp
    · exact fun d hd => bne_iff_ne.mpr (ne_brace_of_mem_hexDigits hd)
  have hsome : (hexDigits c.toNat).isEmpty = false :=
    List.isEmpty_eq_false_iff.mpr Nat.toDigits_ne_nil
  have hvalue : (hexNumber (hexDigits c.toNat)).bind charOf? = some c := by
    rw [hexDigits, hexNumber_toDigits]
    exact charOf?_toNat c
  have hshort : ¬ 6 < (hexDigits c.toNat).length := by omega
  simp only [codeEscape?, hdigits, List.drop_left, hsome, hvalue, Bool.false_or, gt_iff_lt, hshort,
    decide_false, Bool.false_eq_true, if_false, Option.map_some]

/-- An escaped character is read back. -/
theorem escaped?_escapeChar (c : Char) (rounds : Nat) (found s : List Char) :
    escaped? escape? (rounds + 1) found (escapeChar c ++ s) =
      escaped? escape? rounds (c :: found) s := by
  rw [escapeChar]
  by_cases hquote : c = '"'
  · simp [hquote, escaped?, escape?, simpleEscape]
  by_cases hsingle : c = '\''
  · simp [hsingle, escaped?, escape?, simpleEscape]
  by_cases hslash : c = '\\'
  · simp [hslash, escaped?, escape?, simpleEscape]
  by_cases hline : c = '\n'
  · simp [hline, escaped?, escape?, simpleEscape]
  by_cases hreturn : c = '\r'
  · simp [hreturn, escaped?, escape?, simpleEscape]
  by_cases htab : c = '\t'
  · simp [htab, escaped?, escape?, simpleEscape]
  by_cases hnull : c.toNat = 0
  · obtain rfl : c = '\x00' := Char.toNat_inj.mp hnull
    simp [escaped?, escape?, simpleEscape]
  simp only [hquote, hsingle, hslash, hline, hreturn, htab, hnull, if_false]
  split
  · have hcode := codeEscape?_hexDigits c s
    simp [escaped?, escape?, hcode]
  · simp [escaped?]

/-- An escaped text is read back up to the quote behind it. -/
theorem escaped?_escaped (cs : List Char) {rounds : Nat} (h : cs.length < rounds)
    (found rest : List Char) :
    escaped? escape? rounds found (cs.flatMap escapeChar ++ '"' :: rest) =
      some (found.reverse ++ cs, rest) := by
  induction cs generalizing rounds found with
  | nil =>
    obtain ⟨rounds, rfl⟩ := Nat.exists_eq_succ_of_ne_zero (Nat.ne_of_gt h)
    simp [escaped?]
  | cons c cs ih =>
    obtain ⟨rounds, rfl⟩ := Nat.exists_eq_succ_of_ne_zero (Nat.ne_of_gt (Nat.zero_lt_of_lt h))
    rw [List.flatMap_cons, List.append_assoc, escaped?_escapeChar,
      ih (Nat.lt_of_succ_lt_succ h), List.reverse_cons, List.append_assoc]
    rfl

/-- Escaping makes no text shorter. -/
theorem length_le_escaped (cs : List Char) : cs.length ≤ (cs.flatMap escapeChar).length := by
  induction cs with
  | nil => exact Nat.le_refl 0
  | cons c cs ih =>
    have hone : 0 < (escapeChar c).length := by
      rw [escapeChar]
      split_ifs <;> simp
    rw [List.flatMap_cons, List.length_append, List.length_cons]
    omega

/-- A quoted text is read as the text. -/
theorem text?_quote (s : String) {size : Nat} (hsize : (quote s).toList.length ≤ size)
    (rest : List Char) : text? size ((quote s).toList ++ rest) = some (s.toList, rest) := by
  have hlength := length_le_escaped s.toList
  simp only [quote, String.toList_ofList, List.length_append, List.length_cons] at hsize
  have hrounds : s.toList.length < size + 1 := by omega
  simp [quote, text?, escaped?_escaped s.toList hrounds]

/-! ### Words and counts -/

/-- A mark is read off the text it stands in front of. -/
theorem mark?_append (mark : String) (s : List Char) : mark? mark (mark.toList ++ s) = some s := by
  simp [mark?]

/-- A word is read where it ends. -/
theorem word?_append (word : String) {s : List Char} (h : s.head?.any isIdentPart = false) :
    word? word (word.toList ++ s) = some s := by
  simp [word?, mark?_append, h]

/-- What ends a value goes on with no part of an identifier. -/
theorem Ends.not_isIdentPart {s : List Char} (h : Ends s) : s.head?.any isIdentPart = false :=
  h.head?_any (by decide) (by decide)

/-- What ends a value goes on with no word. -/
theorem Ends.word? {s : List Char} (h : Ends s) {word : String} {c : Char}
    (hword : word.toList.head? = some c) (hcomma : c ≠ ',') (hparen : c ≠ ')') :
    word? word s = none := by
  rw [Ron.word?, h.mark? hword hcomma hparen]
  rfl

/-- A decimal digit has its own value. -/
theorem hexValue_of_isDigit {c : Char} (h : c.isDigit = true) :
    hexValue c = some (c.toNat - '0'.toNat) ∧ c.toNat - '0'.toNat < 10 := by
  rw [hexValue, if_pos h]
  refine ⟨rfl, ?_⟩
  rw [Char.isDigit, Bool.and_eq_true, decide_eq_true_eq, decide_eq_true_eq] at h
  have hle : c.toNat ≤ '9'.toNat := h.2
  have hzero : '0'.toNat = 48 := rfl
  have hnine : '9'.toNat = 57 := rfl
  omega

/-- A decimal digit may stand in a number. -/
theorem isDigitPart_of_isDigit {c : Char} (h : c.isDigit = true) : isDigitPart c = true := by
  simp [isDigitPart, (hexValue_of_isDigit h).1]

/-- A decimal digit is no underscore. -/
theorem ne_underscore_of_isDigit {c : Char} (h : c.isDigit = true) : c ≠ '_' := by
  rintro rfl
  exact absurd h (by decide)

/-- Decimal digits have their value. -/
theorem digitsIn?_of_isDigit {digits : List Char} (h : ∀ c ∈ digits, c.isDigit = true) :
    digitsIn? 10 digits = some (digitsValue digits) := by
  have hkept : digits.filter (· != '_') = digits :=
    List.filter_eq_self.mpr fun c hc => bne_iff_ne.mpr (ne_underscore_of_isDigit (h c hc))
  rw [digitsIn?, hkept, digitsValue]
  generalize 0 = n
  clear hkept
  induction digits generalizing n with
  | nil => rfl
  | cons c digits ih =>
    obtain ⟨hvalue, hlt⟩ := hexValue_of_isDigit (h c List.mem_cons_self)
    rw [List.foldlM_cons, hvalue, Option.bind_some, if_pos hlt, List.foldl_cons]
    exact ih (fun d hd => h d (List.mem_cons_of_mem c hd)) _

section Digits

variable (n : Nat) {rest : List Char} (hrest : Ends rest)
include hrest

/-- The digits in front of what ends a value are those of the count. -/
theorem takeWhile_writeCount : (writeCount n ++ rest).takeWhile isDigitPart = writeCount n := by
  have hall : ∀ c ∈ writeCount n, isDigitPart c = true :=
    fun c hc => isDigitPart_of_isDigit (isDigit_of_mem_writeCount hc)
  have hstop : rest.takeWhile isDigitPart = [] := by
    cases rest with
    | nil => rfl
    | cons c s => rcases hrest c rfl with rfl | rfl <;> rfl
  rw [List.takeWhile_append_of_pos hall, hstop, List.append_nil]

/-- Behind the digits of the count stands what ends the value. -/
theorem dropWhile_writeCount : (writeCount n ++ rest).dropWhile isDigitPart = rest := by
  have hsplit := List.takeWhile_append_dropWhile (p := isDigitPart) (l := writeCount n ++ rest)
  rw [takeWhile_writeCount n hrest] at hsplit
  exact List.append_cancel_left hsplit

/-- A count that starts with a zero is zero, so no letter of another base follows. -/
theorem eq_comma_or_paren_of_zero {c : Char} {s : List Char}
    (h : writeCount n ++ rest = '0' :: c :: s) : c = ',' ∨ c = ')' := by
  by_cases hn : n = 0
  · subst hn
    obtain rfl : rest = c :: s := (List.cons.inj h).2
    exact hrest c rfl
  · obtain ⟨d, t, hd⟩ := List.exists_cons_of_ne_nil (writeCount_ne_nil n)
    have hzero := head?_writeCount hn
    rw [hd, List.cons_append] at h
    rw [hd, List.head?_cons, (List.cons.inj h).1] at hzero
    exact absurd rfl hzero

/-- The digits of a count are read as far as they go. -/
theorem readMagnitude_writeCount : readMagnitude (writeCount n ++ rest) = some (n, rest) := by
  obtain ⟨c, s, hs⟩ := List.exists_cons_of_ne_nil (writeCount_ne_nil n)
  have hdigit : c.isDigit = true := isDigit_of_mem_writeCount (hs ▸ List.mem_cons_self)
  have hlow : ¬ (writeCount n).head? = some '_' := by
    rw [hs, List.head?_cons, Option.some.injEq]
    exact ne_underscore_of_isDigit hdigit
  have hvalue : digitsIn? 10 (writeCount n) = some n := by
    rw [digitsIn?_of_isDigit fun c hc => isDigit_of_mem_writeCount hc, digitsValue_writeCount]
  have hbase {c : Char} (hcomma : c ≠ ',') (hparen : c ≠ ')') (s : List Char) :
      writeCount n ++ rest ≠ '0' :: c :: s :=
    fun h => (eq_comma_or_paren_of_zero n hrest h).elim hcomma hparen
  rw [readMagnitude]
  · simp [takeWhile_writeCount n hrest, dropWhile_writeCount n hrest, writeCount_ne_nil, hlow,
      hvalue]
  · exact hbase (by decide) (by decide)
  · exact hbase (by decide) (by decide)
  · exact hbase (by decide) (by decide)

/-- No type is named behind a count. -/
theorem namedType?_writeCount : namedType? (writeCount n ++ rest) = none := by
  have hword {word : String} (h : word.toList.head? = some 'i' ∨ word.toList.head? = some 'u') :
      word? word rest = none := by
    rcases h with h | h
    · exact hrest.word? h (by decide) (by decide)
    · exact hrest.word? h (by decide) (by decide)
  rw [namedType?, dropWhile_writeCount n hrest]
  simp [integerTypes, hword]

end Digits

/-- A count that fits into a machine word is read back. -/
theorem readCount_countText {n : Nat} (hn : n < wordSize) {rest : List Char} (hrest : Ends rest) :
    readCount ((countText n).toList ++ rest) = some (n, rest) := by
  have hsign : readSign (writeCount n ++ rest) = (false, writeCount n ++ rest) := by
    obtain ⟨c, s, hs⟩ := List.exists_cons_of_ne_nil (writeCount_ne_nil n)
    have hdigit : c.isDigit = true := isDigit_of_mem_writeCount (hs ▸ List.mem_cons_self)
    rw [hs, List.cons_append, readSign]
    · rintro s' hs'
      cases hs'
      exact absurd hdigit (by decide)
    · rintro s' hs'
      cases hs'
      exact absurd hdigit (by decide)
  have hhas : IntegerType.count.has false n = true := decide_eq_true (p := n < Nat.pow 2 64) hn
  simp [readCount, readInteger, countText, hsign, readMagnitude_writeCount n hrest,
    namedType?_writeCount n hrest, hhas]

/-! ### Names of fields -/

/-- Every mark of a quoted text, and that of a raw identifier, has a character that no name and no
colon has, and no colon. -/
theorem marks_not_in_names {mark : String} (h : mark ∈ "r#" :: quoteMarks) :
    (∃ c ∈ mark.toList, c.isLower = false ∧ c ≠ '_' ∧ c ≠ ':') ∧ ':' ∉ mark.toList := by
  have hmarks : ("r#" :: quoteMarks).all (fun mark =>
      mark.toList.any (fun c => !c.isLower && c != '_' && c != ':') &&
        !mark.toList.contains ':') = true := by
    decide
  simpa [and_assoc] using List.all_eq_true.mp hmarks mark h

/-- A small letter is a letter. -/
theorem isAlpha_of_isLower {c : Char} (h : c.isLower = true) : c.isAlpha = true :=
  Bool.or_eq_true_iff.mpr (.inr h)

/-- A field name is made of small letters and low lines, at least one. -/
theorem isFieldName_iff {name : String} : isFieldName name = true ↔
    name.toList ≠ [] ∧ ∀ c ∈ name.toList, c.isLower = true ∨ c = '_' := by
  simp [isFieldName]

section Names

variable {name : String} (h : isFieldName name = true) (s : List Char)
include h

/-- No name starts like a quoted text or a raw identifier. -/
theorem not_prefix_of_isFieldName {mark : String} (hmark : mark ∈ "r#" :: quoteMarks) :
    ¬ mark.toList <+: name.toList ++ ':' :: s := by
  intro hprefix
  obtain ⟨⟨c, hc, hlower, hlow, hcolon⟩, hno⟩ := marks_not_in_names hmark
  have hname : name.toList ++ [':'] <+: name.toList ++ ':' :: s := ⟨s, by simp⟩
  rcases List.prefix_or_prefix_of_prefix hprefix hname with hin | hin
  · rcases List.mem_append.mp (hin.subset hc) with hc | hc
    · rcases (isFieldName_iff.mp h).2 c hc with hpart | hpart
      · rw [hlower] at hpart
        cases hpart
      · exact hlow hpart
    · exact hcolon (List.mem_singleton.mp hc)
  · exact hno (hin.subset (by simp))

/-- A field name may stand in an identifier. -/
theorem isIdentPart_of_isFieldName : ∀ c ∈ name.toList, isIdentPart c = true := by
  intro c hc
  rcases (isFieldName_iff.mp h).2 c hc with hlower | rfl
  · simp [isIdentPart, isIdentStart, isAlpha_of_isLower hlower]
  · decide

/-- A name starts with a letter or a low line. -/
theorem exists_cons_of_isFieldName :
    ∃ c cs, name.toList = c :: cs ∧ (c.isLower = true ∨ c = '_') := by
  obtain ⟨hnonempty, hall⟩ := isFieldName_iff.mp h
  obtain ⟨c, cs, hc⟩ := List.exists_cons_of_ne_nil hnonempty
  exact ⟨c, cs, hc, hall c (hc ▸ List.mem_cons_self)⟩

/-- The name of a field is an identifier up to its colon. -/
theorem looseIdent?_of_isFieldName :
    looseIdent? (name.toList ++ ':' :: s) = some (name.toList, ':' :: s) := by
  have hpart := isIdentPart_of_isFieldName h
  have hcolon : isIdentPart ':' = false := by decide
  have hquoted : (quoteMarks.any fun mark => (mark? mark (name.toList ++ ':' :: s)).isSome) =
      false := by
    rw [List.any_eq_false]
    intro mark hmark hsome
    rw [mark?] at hsome
    split at hsome
    · next hprefix =>
      exact not_prefix_of_isFieldName h s (List.mem_cons_of_mem _ hmark)
        (List.isPrefixOf_iff_prefix.mp hprefix)
    · cases hsome
  have hraw (s' : List Char) : name.toList ++ ':' :: s ≠ 'r' :: '#' :: s' := fun heq =>
    not_prefix_of_isFieldName h s List.mem_cons_self ⟨s', heq.symm⟩
  obtain ⟨c, cs, hc, hfirst⟩ := exists_cons_of_isFieldName h
  have hopens : opensIdent c = true := by
    rcases hfirst with hlower | rfl
    · simp [opensIdent, isIdentStart, isAlpha_of_isLower hlower]
    · decide
  rw [hc] at hpart hquoted hraw ⊢
  unfold looseIdent?
  rw [hquoted]
  simp only [Bool.false_eq_true, if_false]
  split
  · next s' heq => exact absurd heq (hraw s')
  · next c' s' _ heq =>
    obtain ⟨rfl, rfl⟩ := List.cons.inj heq
    have hrest : ∀ d ∈ cs, isIdentPart d = true := fun d hd => hpart d (List.mem_cons_of_mem c hd)
    simp [hopens, List.takeWhile_append_of_pos hrest, List.dropWhile_append_of_pos hrest, hcolon]
  · next heq => cases heq

/-- The name of a field is read up to its colon. -/
theorem fieldName?_of_isFieldName :
    fieldName? (name.toList ++ ':' :: s) = some (name, ':' :: s) := by
  have hstop : isRawPart ':' = false := by decide
  simp [fieldName?, identifier?, looseIdent?_of_isFieldName h, hstop]

/-- A field name opens the text it stands in front of. -/
theorem opens_of_isFieldName : Opens ')' (name.toList ++ s) := by
  obtain ⟨c, cs, hc, hfirst⟩ := exists_cons_of_isFieldName h
  refine ⟨c, by rw [hc]; rfl, ?_⟩
  rcases hfirst with hlower | rfl
  · obtain ⟨hlow, hhigh⟩ : 97 ≤ c.toNat ∧ c.toNat ≤ 122 := by
      obtain ⟨hlow, hhigh⟩ := Bool.and_eq_true_iff.mp hlower
      exact ⟨of_decide_eq_true hlow, of_decide_eq_true hhigh⟩
    refine ⟨?_, ?_, ?_⟩
    · cases hspace : isSpace c with
      | false => rfl
      | true =>
        simp [isSpace] at hspace
        omega
    · rintro rfl
      exact absurd hlow (by decide)
    · rintro rfl
      exact absurd hlow (by decide)
  · decide

end Names

end StoryTape.Artifact.Ron
