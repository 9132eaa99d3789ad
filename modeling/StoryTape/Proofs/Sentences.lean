import StoryTape.Proofs.Texts
import StoryTape.Script.TextLine

/-!
# Sentences of a line

Sentences are read one after the other, each up to the next character that no sentence holds, and
gaps between them are passed over. Where this reading comes to the end of the line, it has read the
pieces between the separators, and it comes to the end of the line exactly when no piece is a mere
gap and no other barred character stands in the line.
-/

namespace StoryTape.Script

open Text

/-! ### Gaps -/

/-- A character of a gap is blank. -/
theorem isBlank_of_isGap {c : Char} (h : isGap c = true) : isBlank c = true := by
  rcases (by simpa [isGap] using h : c = ' ' ∨ c = '\t') with rfl | rfl <;> decide

/-- A gap in front is trimmed away. -/
theorem trim_skipGap (s : List Char) : trim (skipGap s) = trim s := by
  have hstart : trimStart (skipGap s) = trimStart s := by
    induction s with
    | nil => rfl
    | cons c s ih =>
      by_cases hc : isGap c = true
      · have hskip : skipGap (c :: s) = skipGap s := by simp [skipGap, hc]
        rw [hskip, ih, trimStart, trimStart, List.dropWhile_cons_of_pos (isBlank_of_isGap hc)]
      · rw [skipGap, List.dropWhile_cons_of_neg hc]
  rw [trim, trim, hstart]

/-- A gap is passed over up to what is no gap. -/
theorem skipGap_append {piece : List Char} (h : atEnd piece = false) (rest : List Char) :
    skipGap (piece ++ rest) = skipGap piece ++ rest := by
  have hne : (piece.dropWhile isGap).isEmpty = false := h
  simp [skipGap, List.dropWhile_append, hne]

/-- Nothing is skipped in front of a text that starts with no gap. -/
theorem skipGap_of_head {s : List Char} (h : ∀ c, s.head? = some c → isGap c = false) :
    skipGap s = s :=
  (takeWhile_dropWhile_append (List.forall_mem_nil _) h).2

/-! ### One sentence -/

/-- A piece of a line: more than a gap, and without barred characters. -/
structure IsPiece (barred piece : List Char) : Prop where
  /-- More than a gap stands there. -/
  spoken : atEnd piece = false
  /-- No barred character stands there. -/
  free : ∀ c ∈ piece, c ∉ barred

section Sentence

variable {barred s sentence rest piece : List Char}

/-- A sentence is a piece of the line without the gap in front of it, and reading stops where the
line ends or a barred character stands. -/
theorem exists_piece_of_readSentence (hgap : ∀ c ∈ barred, isGap c = false)
    (h : readSentence barred s = some (sentence, rest)) :
    ∃ piece, s = piece ++ rest ∧ IsPiece barred piece ∧ sentence = skipGap piece ∧
      ∀ c, rest.head? = some c → c ∈ barred := by
  simp only [readSentence] at h
  split at h
  · cases h
  · next hne =>
    simp only [Option.some.injEq, Prod.mk.injEq] at h
    obtain ⟨hsentence, hrest⟩ := h
    rw [hsentence] at hne
    have hsplit : skipGap s = sentence ++ rest := by
      rw [← hsentence, ← hrest, List.takeWhile_append_dropWhile]
    have hfree : ∀ c ∈ sentence, c ∉ barred := by
      intro c hc
      rw [← hsentence] at hc
      simpa using List.all_eq_true.mp List.all_takeWhile c hc
    have hopens : skipGap sentence = sentence := by
      refine skipGap_of_head fun c hc => ?_
      have hhead : (skipGap s).head? = some c := by
        rw [hsplit, List.head?_append, hc]
        rfl
      exact eq_false_of_head?_dropWhile hhead
    have hgaps : ∀ c ∈ s.takeWhile isGap, isGap c = true := List.all_eq_true.mp List.all_takeWhile
    have hskip : skipGap (s.takeWhile isGap ++ sentence) = sentence := by
      rw [skipGap, List.dropWhile_append_of_pos hgaps, ← skipGap, hopens]
    refine ⟨s.takeWhile isGap ++ sentence, ?_, ⟨?_, ?_⟩, hskip.symm, ?_⟩
    · rw [List.append_assoc, ← hsplit, skipGap, List.takeWhile_append_dropWhile]
    · rw [atEnd, hskip]
      simpa using hne
    · intro c hc
      rcases List.mem_append.mp hc with hc | hc
      · exact fun hbarred => absurd (hgaps c hc) (by simp [hgap c hbarred])
      · exact hfree c hc
    · intro c hc
      rw [← hrest] at hc
      simpa using eq_false_of_head?_dropWhile hc

/-- A piece in front of the end or of a barred character is read as a sentence. -/
theorem readSentence_append (hpiece : IsPiece barred piece) (rest : List Char)
    (hrest : ∀ c, rest.head? = some c → c ∈ barred) :
    readSentence barred (piece ++ rest) = some (skipGap piece, rest) := by
  have hfree : ∀ c ∈ skipGap piece, (!barred.contains c) = true := fun c hc => by
    simpa using hpiece.free c ((List.dropWhile_suffix isGap).subset hc)
  have hne : (skipGap piece).isEmpty = false := hpiece.spoken
  obtain ⟨htake, hdrop⟩ :=
    takeWhile_dropWhile_append hfree fun c hc => by simpa using hrest c hc
  simp only [readSentence, skipGap_append hpiece.spoken, htake, hdrop, hne]
  rfl

end Sentence

/-! ### All sentences -/

section Sentences

variable {separator : Char} {barred s rest : List Char} {sentences pieces : List (List Char)}

/-- Where a piece ends, the line ends or a separator stands. -/
theorem head?_flatMap_separator {c : Char}
    (h : (pieces.flatMap (separator :: ·)).head? = some c) : c = separator := by
  cases pieces with
  | nil => cases h
  | cons piece pieces => simpa [eq_comm] using h

/-- Where reading stops without a gap in front, it is at the end only when nothing is left. -/
theorem eq_nil_of_atEnd (hs : skipGap s = s) (hend : atEnd s = true) : s = [] := by
  rw [atEnd, hs] at hend
  exact List.isEmpty_iff.mp hend

/-- Reading on to the end of the line has read pieces, each after a separator. -/
theorem exists_pieces_of_readMoreSentences (hgap : ∀ c ∈ barred, isGap c = false) {rounds : Nat}
    (hs : ∀ c, s.head? = some c → c ∈ barred)
    (h : readMoreSentences separator barred rounds s = (sentences, rest))
    (hend : atEnd rest = true) :
    ∃ pieces : List (List Char), s = pieces.flatMap (separator :: ·) ∧
      (∀ piece ∈ pieces, IsPiece barred piece) ∧ sentences = pieces.map skipGap := by
  have hskip : skipGap s = s := skipGap_of_head fun c hc => hgap c (hs c hc)
  induction rounds generalizing s sentences with
  | zero =>
    cases h
    exact ⟨[], eq_nil_of_atEnd hskip hend, nofun, rfl⟩
  | succ rounds ih =>
    rw [readMoreSentences, hskip] at h
    split at h
    · cases h
      exact ⟨[], rfl, nofun, rfl⟩
    · next c s' =>
      split at h
      · next hc =>
        split at h
        · cases h
          exact absurd (eq_nil_of_atEnd hskip hend) (List.cons_ne_nil c s')
        · next sentence rest' hread =>
          obtain ⟨piece, rfl, hpiece, rfl, hrest'⟩ := exists_piece_of_readSentence hgap hread
          have hskip' := skipGap_of_head fun c hc => hgap c (hrest' c hc)
          cases hmore : readMoreSentences separator barred rounds rest' with
          | mk others rest'' =>
            rw [hmore] at h
            cases h
            obtain ⟨pieces, rfl, hpieces, rfl⟩ := ih hrest' hmore hskip'
            exact ⟨piece :: pieces, by simp [hc], List.forall_mem_cons.mpr ⟨hpiece, hpieces⟩, rfl⟩
      · cases h
        exact absurd (eq_nil_of_atEnd hskip hend) (List.cons_ne_nil c s')

/-- Pieces after separators are read one after the other. -/
theorem readMoreSentences_flatMap (hbarred : separator ∈ barred) (hgap : isGap separator = false)
    (hpieces : ∀ piece ∈ pieces, IsPiece barred piece) {rounds : Nat}
    (hrounds : (pieces.flatMap (separator :: ·)).length ≤ rounds) :
    readMoreSentences separator barred rounds (pieces.flatMap (separator :: ·)) =
      (pieces.map skipGap, []) := by
  induction pieces generalizing rounds with
  | nil => cases rounds <;> rfl
  | cons piece pieces ih =>
    obtain ⟨hpiece, hothers⟩ := List.forall_mem_cons.mp hpieces
    rw [List.flatMap_cons, List.cons_append, List.length_cons, List.length_append] at hrounds
    obtain ⟨rounds, rfl⟩ : ∃ n, rounds = n + 1 := ⟨rounds - 1, by omega⟩
    have hread := readSentence_append hpiece (pieces.flatMap (separator :: ·)) fun c hc =>
      head?_flatMap_separator hc ▸ hbarred
    have hmore := @ih hothers rounds (by omega)
    have hskip : ∀ s, skipGap (separator :: s) = separator :: s := fun s =>
      skipGap_of_head fun c hc => Option.some.inj hc ▸ hgap
    rw [List.flatMap_cons, List.cons_append, readMoreSentences, hskip]
    simp only [if_true, hread, hmore, List.map_cons]

/-- Reading comes to the end of the line exactly when only separators are barred in it and no piece
between them is a mere gap, and then it has read these pieces. -/
theorem readSentences_to_end_iff (hbarred : separator ∈ barred)
    (hgap : ∀ c ∈ barred, isGap c = false) :
    (∃ rest, readSentences separator barred s = some (sentences, rest) ∧ atEnd rest = true) ↔
      (∀ c ∈ s, c ∈ barred → c = separator) ∧
        (∀ piece ∈ splitChar separator s, atEnd piece = false) ∧
        sentences = (splitChar separator s).map skipGap := by
  constructor
  · rintro ⟨rest, hread, hend⟩
    rw [readSentences] at hread
    split at hread
    · cases hread
    · next sentence rest' hfirst =>
      obtain ⟨piece, rfl, hpiece, rfl, hrest'⟩ := exists_piece_of_readSentence hgap hfirst
      cases hmore : readMoreSentences separator barred rest'.length rest' with
      | mk others rest'' =>
        rw [hmore] at hread
        cases hread
        obtain ⟨pieces, rfl, hpieces, rfl⟩ :=
          exists_pieces_of_readMoreSentences hgap hrest' hmore hend
        have hall := List.forall_mem_cons.mpr ⟨hpiece, hpieces⟩
        -- The pieces hold no barred character, so the separators are those between them.
        have hsplit : splitChar separator (piece ++ pieces.flatMap (separator :: ·)) =
            piece :: pieces := by
          rw [← join_cons]
          exact splitChar_join (List.cons_ne_nil piece pieces) fun p hp hmem =>
            (hall p hp).free separator hmem hbarred
        refine ⟨fun c hc hcb => ?_, ?_, by rw [hsplit, List.map_cons]⟩
        · rcases List.mem_append.mp hc with hc | hc
          · exact absurd hcb (hpiece.free c hc)
          · obtain ⟨p, hp, hc⟩ := List.mem_flatMap.mp hc
            exact (List.mem_cons.mp hc).resolve_right fun hin => (hpieces p hp).free c hin hcb
        · rw [hsplit]
          exact fun p hp => (hall p hp).spoken
  · rintro ⟨honly, hspoken, rfl⟩
    have hpieces : ∀ piece ∈ splitChar separator s, IsPiece barred piece := fun piece hpiece =>
      ⟨hspoken piece hpiece, fun c hc hcb => by
        have hin : c ∈ s := (infix_of_mem_splitChar hpiece).subset hc
        exact not_mem_of_mem_splitChar hpiece (honly c hin hcb ▸ hc)⟩
    cases hsplit : splitChar separator s with
    | nil =>
      have hlength := length_splitChar separator s
      simp [hsplit] at hlength
    | cons first pieces =>
      rw [hsplit] at hpieces
      obtain ⟨hfirst, hothers⟩ := List.forall_mem_cons.mp hpieces
      have hs := join_splitChar separator s
      rw [hsplit, join_cons] at hs
      have hread := readSentence_append hfirst (pieces.flatMap (separator :: ·)) fun c hc =>
        head?_flatMap_separator hc ▸ hbarred
      refine ⟨[], ?_, rfl⟩
      simp only [readSentences, ← hs, hread,
        readMoreSentences_flatMap hbarred (hgap separator hbarred) hothers (Nat.le_refl _),
        List.map_cons]

end Sentences

/-! ### Loops and sentences shown once -/

/-- Gaps in front of sentences do not show once these are trimmed. -/
theorem trimSentences_map_skipGap (pieces : List (List Char)) :
    trimSentences (pieces.map skipGap) = trimSentences pieces := by
  simp [trimSentences, trim_skipGap]

/-- A loop is what stands between the occurrences of `|`, when no piece is a mere gap. -/
theorem readLoop_eq_some_iff {s : List Char} {sentences : List String} :
    readLoop s = some sentences ↔
      (∀ piece ∈ splitChar '|' s, atEnd piece = false) ∧
        sentences = trimSentences (splitChar '|' s) := by
  have hread (pieces) :=
    @readSentences_to_end_iff '|' ['|'] s pieces (by decide) (by simp [isGap])
  rw [readLoop]
  constructor
  · intro h
    split at h
    · next pieces rest hpieces =>
      split at h
      · next hend =>
        cases h
        obtain ⟨-, hspoken, rfl⟩ := (hread pieces).mp ⟨rest, hpieces, hend⟩
        exact ⟨hspoken, trimSentences_map_skipGap _⟩
      · cases h
    · cases h
  · rintro ⟨hspoken, rfl⟩
    have honly : ∀ c ∈ s, c ∈ ['|'] → c = '|' := fun c _ hc => List.mem_singleton.mp hc
    obtain ⟨rest, hpieces, hend⟩ := (hread _).mpr ⟨honly, hspoken, rfl⟩
    rw [hpieces]
    simp only [hend, if_true, trimSentences_map_skipGap]

/-- Sentences shown once are what stands between the occurrences of `&`, when there is one, when no
piece is a mere gap and `|` does not occur. -/
theorem readOnce_eq_some_iff {s : List Char} {sentences : List String} :
    readOnce s = some sentences ↔
      ('&' ∈ s ∧ '|' ∉ s ∧ ∀ piece ∈ splitChar '&' s, atEnd piece = false) ∧
        sentences = trimSentences (splitChar '&' s) := by
  have hread (pieces) :=
    @readSentences_to_end_iff '&' ['&', '|'] s pieces (by decide) (by simp [isGap])
  -- there is a second piece exactly when there is a separator
  have hcut : (∃ first second more, (splitChar '&' s).map skipGap = first :: second :: more) ↔
      '&' ∈ s := by
    have hlength := length_splitChar '&' s
    rw [← List.count_pos_iff]
    cases hsplit : splitChar '&' s with
    | nil => simp [hsplit] at hlength
    | cons first pieces =>
      rw [hsplit, List.length_cons] at hlength
      cases pieces with
      | nil => simp_all
      | cons second more =>
        rw [List.length_cons] at hlength
        exact ⟨fun _ => by omega, fun _ => ⟨_, _, _, rfl⟩⟩
  rw [readOnce]
  constructor
  · intro h
    split at h
    · next first second more rest hpieces =>
      split at h
      · next hend =>
        cases h
        obtain ⟨honly, hspoken, hsplit⟩ := (hread _).mp ⟨rest, hpieces, hend⟩
        refine ⟨⟨hcut.mp ⟨first, second, more, hsplit.symm⟩, fun hbar => ?_, hspoken⟩, ?_⟩
        · exact absurd (honly '|' hbar (by decide)) (by decide)
        · rw [hsplit, trimSentences_map_skipGap]
      · cases h
    · cases h
  · rintro ⟨⟨hamp, hbar, hspoken⟩, rfl⟩
    have honly : ∀ c ∈ s, c ∈ ['&', '|'] → c = '&' := by
      intro c hc hbarred
      rcases List.mem_cons.mp hbarred with rfl | hbarred
      · rfl
      · exact absurd (List.mem_singleton.mp hbarred ▸ hc) hbar
    obtain ⟨rest, hpieces, hend⟩ := (hread _).mpr ⟨honly, hspoken, rfl⟩
    obtain ⟨first, second, more, hsplit⟩ := hcut.mpr hamp
    rw [hpieces, hsplit]
    simp only [hend, if_true]
    rw [← hsplit, trimSentences_map_skipGap]

/-- A text line has a name and, after it, sentences shown once or else a loop. -/
theorem parseTextLine_eq_ok_iff {source : String} {line : TextLine} :
    parseTextLine source = .ok line ↔
      ∃ name rest, readName source.toList = some (name, rest) ∧ line.name = String.ofList name ∧
        (line.once = true ∧ readOnce rest = some line.sentences ∨
          line.once = false ∧ readOnce rest = none ∧ readLoop rest = some line.sentences) := by
  obtain ⟨name, sentences, once⟩ := line
  rw [parseTextLine]
  constructor
  · intro h
    split at h
    · cases h
    · next name' rest hname =>
      refine ⟨name', rest, hname, ?_⟩
      split at h
      · next honce =>
        cases h
        exact ⟨rfl, .inl ⟨rfl, honce⟩⟩
      · next honce =>
        split at h
        · next hloop =>
          cases h
          exact ⟨rfl, .inr ⟨rfl, honce, hloop⟩⟩
        · cases h
  · rintro ⟨name', rest, hname, rfl, ⟨rfl, honce⟩ | ⟨rfl, honce, hloop⟩⟩
    · simp only [hname, honce]
    · simp only [hname, honce, hloop]

end StoryTape.Script
