import StoryTape.Proofs.CutTexts
import StoryTape.Script.LineStore

/-!
# The lines that a text is cut into

Each line of a text is one whole signal, or it is trimmed and holds none. The lines hold no break,
and put together they are the text: breaks and blanks apart, nothing is lost and nothing moves.
-/

namespace StoryTape.Script

open Text

variable {s text line : List Char}

/-! ### Breaks -/

/-- A text without the breaks `</>`, found from left to right. -/
def withoutBreaks : List Char → List Char
  | '<' :: '/' :: '>' :: s => withoutBreaks s
  | c :: s => c :: withoutBreaks s
  | [] => []

/-- Where no break starts, a character is kept. -/
theorem withoutBreaks_cons {c : Char} (h : ¬ ['<', '/', '>'] <+: c :: s) :
    withoutBreaks (c :: s) = c :: withoutBreaks s := by
  rw [withoutBreaks]
  rintro rest rfl rfl
  exact h ⟨rest, rfl⟩

/-- Cutting a text at its breaks loses the breaks. -/
theorem flatten_splitEvery_breaks (s : List Char) :
    (splitEvery ['<', '/', '>'] s).flatten = withoutBreaks s := by
  fun_induction withoutBreaks s with
  | case1 s ih =>
    have hfirst : splitFirst ['<', '/', '>'] ('<' :: '/' :: '>' :: s) = some ([], s) := by
      simp [splitFirst]
    rw [splitEvery_of_splitFirst (List.cons_ne_nil _ _) hfirst, List.flatten_cons, ih,
      List.nil_append]
  | case2 c s hopen ih =>
    have hkept : ¬ ['<', '/', '>'] <+: c :: s := by
      rintro ⟨rest, hrest⟩
      obtain ⟨hc, hs⟩ := List.cons.inj hrest
      exact hopen rest hc.symm hs.symm
    rw [splitEvery_cons hkept, flatten_consPiece, ih]
  | case3 => rfl

/-- Blanks in front of a text are no part of a break. -/
theorem withoutBreaks_blanks_append {l : List Char} (h : allBlank l = true) (s : List Char) :
    withoutBreaks (l ++ s) = l ++ withoutBreaks s := by
  induction l with
  | nil => rfl
  | cons c l ih =>
    rw [allBlank, List.all_cons, Bool.and_eq_true] at h
    have hopen : ¬ ['<', '/', '>'] <+: c :: (l ++ s) := by
      rw [List.cons_prefix_cons]
      rintro ⟨rfl, -⟩
      exact absurd h.1 (by decide)
    rw [List.cons_append, withoutBreaks_cons hopen, ih h.2, List.cons_append]

/-- Blanks behind a text are no part of a break. -/
theorem withoutBreaks_append_blanks {r : List Char} (h : allBlank r = true) (s : List Char) :
    withoutBreaks (s ++ r) = withoutBreaks s ++ r := by
  fun_induction withoutBreaks s with
  | case1 s ih => exact ih
  | case2 c s hopen ih =>
    have hkept : ¬ ['<', '/', '>'] <+: c :: (s ++ r) := by
      -- a break that reaches into `r` would hold a blank, so it would be one of `c :: s` alone
      rw [← List.cons_append]
      intro hprefix
      obtain ⟨rest, hrest⟩ := prefix_of_prefix_append_blanks (by simp [isBlank]) h hprefix
      obtain ⟨hc, hs⟩ := List.cons.inj hrest
      exact hopen rest hc.symm hs.symm
    rw [List.cons_append, withoutBreaks_cons hkept, ih, List.cons_append]
  | case3 =>
    have hnone := withoutBreaks_blanks_append h []
    rwa [List.append_nil, withoutBreaks, List.append_nil] at hnone

/-- Trimming a text changes blanks only, with breaks or without. -/
theorem solid_withoutBreaks_trim (s : List Char) :
    solid (withoutBreaks (trim s)) = solid (withoutBreaks s) := by
  obtain ⟨l, r, hl, hr, hs⟩ := exists_blanks_around_trim s
  conv_rhs => rw [hs]
  rw [withoutBreaks_append_blanks hr, withoutBreaks_blanks_append hl, solid_append, solid_append,
    solid_eq_nil_of_allBlank hl, solid_eq_nil_of_allBlank hr, List.nil_append, List.append_nil]

/-! ### Signals -/

/-- A signal that ends with the first `/>` behind its opening. -/
def IsOneSignal (line : List Char) : Prop :=
  ∃ name, line = ['<', '$'] ++ name ++ ['/', '>'] ∧ ¬ ['/', '>'] <:+: name ++ ['/']

/-- Somewhere a signal is opened and closed again. -/
def HoldsSignal (text : List Char) : Prop :=
  ∃ before name after, text = before ++ ['<', '$'] ++ (name ++ ['/', '>'] ++ after)

/-- A text holds the signals of the texts within it. -/
theorem HoldsSignal.mono (h : HoldsSignal s) (hs : s <:+: text) : HoldsSignal text := by
  obtain ⟨before, name, after, rfl⟩ := h
  obtain ⟨l, r, rfl⟩ := hs
  exact ⟨l ++ before, name, after ++ r, by simp⟩

/-- A text that holds a signal holds its opening. -/
theorem HoldsSignal.opening_infix (h : HoldsSignal s) : ['<', '$'] <:+: s := by
  obtain ⟨before, name, after, rfl⟩ := h
  exact List.infix_append _ _ _

/-- What a line looks like. -/
structure IsLine (line : List Char) : Prop where
  filled : line ≠ []
  unbroken : ¬ ['<', '/', '>'] <:+: line
  form : IsOneSignal line ∨ trim line = line ∧ ¬ HoldsSignal line

/-- A line is not blank. -/
theorem IsLine.solid_ne_nil (h : IsLine line) : solid line ≠ [] := by
  rcases h.form with ⟨name, rfl, -⟩ | ⟨htrim, -⟩
  · have hopening : solid ['<', '$'] = ['<', '$'] := by decide
    rw [solid_append, solid_append, hopening]
    exact List.cons_ne_nil _ _
  · rw [ne_eq, ← trim_eq_nil_iff, htrim]
    exact h.filled

/-- A line is its own key when it is a signal, and then only. -/
theorem IsLine.isSignal_iff {line : String} (h : IsLine line.toList) :
    isSignal line = true ↔ IsOneSignal line.toList := by
  rw [isSignal, Bool.and_eq_true, List.isPrefixOf_iff_prefix, List.isSuffixOf_iff_suffix]
  constructor
  · rintro ⟨⟨rest, hrest⟩, ⟨before, hbefore⟩⟩
    rcases h.form with hsignal | ⟨-, hholds⟩
    · exact hsignal
    · refine absurd ?_ hholds
      rw [← hbefore] at hrest ⊢
      match before with
      | [] => cases hrest
      | [c] => cases hrest
      | c :: d :: name =>
        cases hrest
        exact ⟨[], name, [], by simp⟩
  · rintro ⟨name, hline, -⟩
    rw [hline]
    exact ⟨by simp, List.suffix_append _ _⟩

/-! ### Lines -/

/-- A piece without breaks and signals is a line once it is trimmed. -/
theorem isLine_of_mem_trimmedPiece (hunbroken : ¬ ['<', '/', '>'] <:+: text)
    (hsignal : ¬ HoldsSignal text) (h : line ∈ trimmedPiece text) : IsLine line := by
  have hwithin := trim_within text
  rw [trimmedPiece] at h
  split at h
  · cases h
  · next hblank =>
    obtain rfl := List.mem_singleton.mp h
    exact ⟨fun hnil => hblank (List.isEmpty_iff.mpr hnil),
      fun hbreak => hunbroken (hbreak.trans hwithin),
      .inr ⟨trim_trim text, fun hholds => hsignal (hholds.mono hwithin)⟩⟩

/-- Around the signals of a text no whole signal is left. -/
theorem isLine_of_mem_splitSignals (hunbroken : ¬ ['<', '/', '>'] <:+: text)
    (h : line ∈ splitSignals text) : IsLine line := by
  have hopening : ['<', '$'] ≠ [] := List.cons_ne_nil _ _
  have hclosing : ['/', '>'] ≠ [] := List.cons_ne_nil _ _
  fun_induction splitSignals text with
  | case1 text hopen =>
    refine isLine_of_mem_trimmedPiece hunbroken (fun hholds => ?_) h
    exact not_infix_of_splitFirst_eq_none hopen hholds.opening_infix
  | case2 text before inside hopen hclose =>
    -- whichever opening is meant, its `/>` would stand behind the first opening as well
    refine isLine_of_mem_trimmedPiece hunbroken ?_ h
    rintro ⟨l, name, r, htext⟩
    have hbehind := suffix_of_splitFirst hopening hopen htext
    exact not_infix_of_splitFirst_eq_none hclose ((List.infix_append _ _ _).trans hbehind.isInfix)
  | case3 text before inside hopen name rest hclose ih =>
    have htext := eq_append_of_splitFirst hopen
    rw [eq_append_of_splitFirst hclose] at htext
    rw [List.mem_append, List.mem_append, List.mem_singleton] at h
    rcases h with (h | rfl) | h
    · have hbefore : before <:+: text :=
        ⟨[], _, by rw [htext, List.nil_append, List.append_assoc]⟩
      refine isLine_of_mem_trimmedPiece (fun hbreak => hunbroken (hbreak.trans hbefore))
        (fun hholds => ?_) h
      refine not_infix_of_splitFirst hopening hopen ?_
      exact hholds.opening_infix.trans (List.prefix_append _ _).isInfix
    · refine ⟨List.cons_ne_nil _ _, fun hbreak => hunbroken (hbreak.trans ?_),
        .inl ⟨name, rfl, not_infix_of_splitFirst hclosing hclose⟩⟩
      exact ⟨before, rest, by simp [htext]⟩
    · refine ih (fun hbreak => hunbroken (hbreak.trans ?_)) h
      exact ⟨before ++ ['<', '$'] ++ name ++ ['/', '>'], [], by simp [htext]⟩

/-- A text is split into lines. -/
theorem isLine_of_mem_splitPieces {line : String} (h : line ∈ splitPieces text) :
    IsLine line.toList := by
  rw [splitPieces, List.mem_map] at h
  obtain ⟨_, hline, rfl⟩ := h
  obtain ⟨piece, hpiece, hline⟩ := List.mem_flatMap.mp hline
  rw [String.toList_ofList]
  exact isLine_of_mem_splitSignals
    (within_of_mem_splitEvery (List.cons_ne_nil _ _) hpiece).2 hline

/-! ### What the lines hold -/

/-- Trimming a piece loses only blanks. -/
theorem solid_flatten_trimmedPiece (text : List Char) :
    solid (trimmedPiece text).flatten = solid text := by
  rw [← solid_trim text, trimmedPiece]
  split
  · next hblank =>
    rw [List.isEmpty_iff.mp hblank]
    rfl
  · rw [List.flatten_singleton]

/-- Cutting the signals out keeps all characters that are not blank in order. -/
theorem solid_flatten_splitSignals (text : List Char) :
    solid (splitSignals text).flatten = solid text := by
  fun_induction splitSignals text with
  | case1 text hopen => exact solid_flatten_trimmedPiece text
  | case2 text before inside hopen hclose => exact solid_flatten_trimmedPiece text
  | case3 text before inside hopen name rest hclose ih =>
    rw [eq_append_of_splitFirst hopen, eq_append_of_splitFirst hclose, List.flatten_append,
      List.flatten_append, List.flatten_singleton]
    simp only [solid_append, solid_flatten_trimmedPiece, ih, List.append_assoc]

/-- The lines of a text hold what the text holds, breaks and blanks apart. -/
theorem solid_splitPieces (text : List Char) :
    solid ((splitPieces text).flatMap String.toList) = solid (withoutBreaks text) := by
  have hpieces (pieces : List (List Char)) :
      solid (pieces.flatMap splitSignals).flatten = solid pieces.flatten := by
    induction pieces with
    | nil => rfl
    | cons piece pieces ih =>
      rw [List.flatMap_cons, List.flatten_append, List.flatten_cons, solid_append, solid_append,
        solid_flatten_splitSignals, ih]
  have htexts (lines : List (List Char)) :
      (lines.map String.ofList).flatMap String.toList = lines.flatten := by
    simp [List.flatMap_def, Function.comp_def]
  rw [splitPieces, htexts, hpieces, flatten_splitEvery_breaks]

/-- A text has no lines when it holds nothing but breaks and blanks. -/
theorem splitPieces_eq_nil_iff : splitPieces text = [] ↔ solid (withoutBreaks text) = [] := by
  rw [← solid_splitPieces]
  constructor
  · intro h
    rw [h]
    rfl
  · intro h
    by_contra hne
    obtain ⟨line, lines, hcons⟩ := List.exists_cons_of_ne_nil hne
    have hline : IsLine line.toList :=
      isLine_of_mem_splitPieces (hcons ▸ List.mem_cons_self)
    rw [hcons, List.flatMap_cons, solid_append] at h
    exact hline.solid_ne_nil (List.append_eq_nil_iff.mp h).1

end StoryTape.Script
