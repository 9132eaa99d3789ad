import Mathlib.Data.List.TakeWhile
import StoryTape.Proofs.Sentences

/-!
# What a text line says

A text line is a name between two gaps and a body. It is read exactly when between the occurrences
of `|` in its body there is no mere gap. Its sentences are what stands there, unless the body has
`&` and no `|` and is no mere gap between the occurrences of `&`: then they are what stands between
those, and each is shown once.
-/

namespace StoryTape.Script

open Text

/-! ### Gaps in front -/

/-- A gap is skipped at once. -/
theorem skipGap_skipGap (s : List Char) : skipGap (skipGap s) = skipGap s :=
  skipGap_of_head fun _ hc => eq_false_of_head?_dropWhile hc

/-- A gap in front of sentences does not matter. -/
theorem readSentences_skipGap (separator : Char) (barred s : List Char) :
    readSentences separator barred (skipGap s) = readSentences separator barred s := by
  have hread : readSentence barred (skipGap s) = readSentence barred s := by
    simp only [readSentence, skipGap_skipGap]
  rw [readSentences, readSentences, hread]

/-- A gap in front of the sentences changes nothing. -/
theorem readOnce_skipGap (s : List Char) : readOnce (skipGap s) = readOnce s := by
  rw [readOnce, readOnce, readSentences_skipGap]

/-- A gap in front of a loop does not matter. -/
theorem readLoop_skipGap (s : List Char) : readLoop (skipGap s) = readLoop s := by
  rw [readLoop, readLoop, readSentences_skipGap]

/-! ### The parts of a text line -/

/-- A line is made of a gap, a name, another gap and a body. The name is as long as it can be, and
so is the gap behind it. -/
structure IsNamed (s lead name gap body : List Char) : Prop where
  whole : s = lead ++ name ++ gap ++ body
  lead_isGap : ∀ c ∈ lead, isGap c = true
  name_ne_nil : name ≠ []
  name_isNameChar : ∀ c ∈ name, isNameChar c = true
  name_stops : ∀ c, (gap ++ body).head? = some c → isNameChar c = false
  gap_isGap : ∀ c ∈ gap, isGap c = true
  gap_stops : ∀ c, body.head? = some c → isGap c = false

/-- More than a gap stands there. -/
def Filled (s : List Char) : Prop := ∃ c ∈ s, isGap c = false

/-- The body is made of sentences to be shown once. -/
structure PlaysOnce (body : List Char) : Prop where
  separated : '&' ∈ body
  free : '|' ∉ body
  filled : ∀ piece ∈ splitChar '&' body, Filled piece

/-- A text does not end with its gap when more than that stands there. -/
theorem atEnd_eq_false_iff {s : List Char} : atEnd s = false ↔ Filled s := by
  rw [atEnd, ← Bool.not_eq_true, List.isEmpty_iff, skipGap, List.dropWhile_eq_nil_iff, Filled]
  simp

/-- No piece ends with its gap when more than that stands in each. -/
theorem forall_atEnd_eq_false_iff {pieces : List (List Char)} :
    (∀ piece ∈ pieces, atEnd piece = false) ↔ ∀ piece ∈ pieces, Filled piece :=
  forall₂_congr fun _ _ => atEnd_eq_false_iff

/-- A character of a gap stands in no name. -/
theorem isNameChar_of_isGap {c : Char} (h : isGap c = true) : isNameChar c = false := by
  rcases (by simpa [isGap] using h : c = ' ' ∨ c = '\t') with rfl | rfl <;> decide +kernel

/-- What is read is the name, and behind it a gap and a body are left. -/
theorem isNamed_of_readName {s name rest : List Char} (h : readName s = some (name, rest)) :
    IsNamed s (s.takeWhile isGap) name (rest.takeWhile isGap) (skipGap rest) := by
  simp only [readName] at h
  split at h
  · cases h
  next hne =>
  obtain ⟨hname, hrest⟩ := Prod.mk.inj (Option.some.inj h)
  rw [hname] at hne
  have hskip : name ++ rest = skipGap s := by
    rw [← hname, ← hrest, List.takeWhile_append_dropWhile]
  have hleft : rest.takeWhile isGap ++ skipGap rest = rest := List.takeWhile_append_dropWhile
  exact {
    whole := by
      rw [List.append_assoc _ _ (skipGap rest), hleft, List.append_assoc, hskip, skipGap,
        List.takeWhile_append_dropWhile]
    lead_isGap := List.all_eq_true.mp List.all_takeWhile
    name_ne_nil := fun hnil => hne (List.isEmpty_iff.mpr hnil)
    name_isNameChar := hname ▸ List.all_eq_true.mp List.all_takeWhile
    name_stops := fun c hc => by
      rw [hleft, ← hrest] at hc
      exact eq_false_of_head?_dropWhile hc
    gap_isGap := List.all_eq_true.mp List.all_takeWhile
    gap_stops := fun c hc => eq_false_of_head?_dropWhile hc }

/-- The name of a line is read off its parts. -/
theorem IsNamed.readName_eq {s lead name gap body : List Char} (h : IsNamed s lead name gap body) :
    readName s = some (name, gap ++ body) := by
  have hskip : skipGap s = name ++ (gap ++ body) := by
    rw [h.whole, List.append_assoc, List.append_assoc, skipGap,
      List.dropWhile_append_of_pos h.lead_isGap, ← skipGap]
    refine skipGap_of_head fun c hc => ?_
    obtain ⟨d, name, rfl⟩ := List.exists_cons_of_ne_nil h.name_ne_nil
    obtain rfl : d = c := Option.some.inj hc
    by_contra hgap
    rw [Bool.not_eq_false] at hgap
    have hopens := h.name_isNameChar d List.mem_cons_self
    rw [isNameChar_of_isGap hgap] at hopens
    cases hopens
  obtain ⟨htake, hdrop⟩ := takeWhile_dropWhile_append h.name_isNameChar h.name_stops
  simp only [readName, hskip, htake, hdrop]
  rw [if_neg fun hempty => h.name_ne_nil (List.isEmpty_iff.mp hempty)]

/-- The body starts where the gap ends. -/
theorem IsNamed.skipGap_eq {s lead name gap body : List Char} (h : IsNamed s lead name gap body) :
    skipGap (gap ++ body) = body := by
  rw [skipGap, List.dropWhile_append_of_pos h.gap_isGap, ← skipGap, skipGap_of_head h.gap_stops]

/-! ### Loop or once -/

/-- Where sentences are shown once, the body is one piece without `|` and no mere gap. -/
theorem PlaysOnce.forall_filled {body : List Char} (h : PlaysOnce body) :
    ∀ piece ∈ splitChar '|' body, Filled piece := by
  rw [splitChar_eq_singleton h.free]
  intro piece hpiece
  obtain rfl := List.mem_singleton.mp hpiece
  exact ⟨'&', h.separated, by decide⟩

/-- Sentences are read off a body that plays once, between the occurrences of `&`. -/
theorem readOnce_eq_some_iff_playsOnce {body : List Char} {sentences : List String} :
    readOnce body = some sentences ↔
      PlaysOnce body ∧ sentences = trimSentences (splitChar '&' body) := by
  rw [readOnce_eq_some_iff, forall_atEnd_eq_false_iff]
  exact and_congr_left' ⟨fun ⟨hcut, hfree, hfilled⟩ => ⟨hcut, hfree, hfilled⟩,
    fun h => ⟨h.separated, h.free, h.filled⟩⟩

/-- Any other body is not read as sentences to be shown once. -/
theorem readOnce_eq_none_iff {body : List Char} : readOnce body = none ↔ ¬ PlaysOnce body := by
  rw [Option.eq_none_iff_forall_ne_some]
  constructor
  · exact fun h honce => h _ (readOnce_eq_some_iff_playsOnce.mpr ⟨honce, rfl⟩)
  · exact fun h sentences hread => h (readOnce_eq_some_iff_playsOnce.mp hread).1

/-- The body is read as sentences shown once where it is made of them, else as a loop. -/
theorem once_or_loop_iff {body : List Char} {once : Bool} {sentences : List String} :
    (once = true ∧ readOnce body = some sentences ∨
        once = false ∧ readOnce body = none ∧ readLoop body = some sentences) ↔
      (∀ piece ∈ splitChar '|' body, Filled piece) ∧ (once = true ↔ PlaysOnce body) ∧
        sentences = trimSentences (splitChar (if once then '&' else '|') body) := by
  rw [readOnce_eq_some_iff_playsOnce, readOnce_eq_none_iff, readLoop_eq_some_iff,
    forall_atEnd_eq_false_iff]
  cases once with
  | true =>
    constructor
    · rintro (⟨-, honce, hsentences⟩ | ⟨hfalse, -⟩)
      · exact ⟨honce.forall_filled, iff_of_true rfl honce, hsentences⟩
      · cases hfalse
    · rintro ⟨-, honce, hsentences⟩
      exact .inl ⟨rfl, honce.mp rfl, hsentences⟩
  | false =>
    constructor
    · rintro (⟨hfalse, -⟩ | ⟨-, honce, hfilled, hsentences⟩)
      · cases hfalse
      · exact ⟨hfilled, iff_of_false Bool.false_ne_true honce, hsentences⟩
    · rintro ⟨hfilled, honce, hsentences⟩
      exact .inr ⟨rfl, fun h => Bool.false_ne_true (honce.mpr h), hfilled, hsentences⟩

/-- A text has a name and, behind it, a body that is a mere gap nowhere between the occurrences of
`|`. -/
structure IsTextLine (s name body : List Char) : Prop where
  named : ∃ lead gap, IsNamed s lead name gap body
  body_ne_nil : body ≠ []
  filled : ∀ piece ∈ splitChar '|' body, Filled piece

/-- The text line that a name and a body make. Its sentences stand between the occurrences of `&`
when they are to be shown once, else between those of `|`. -/
structure TextLine.Says (line : TextLine) (name body : List Char) : Prop where
  name_eq : line.name = String.ofList name
  once_iff : line.once = true ↔ PlaysOnce body
  sentences_eq : line.sentences = trimSentences (splitChar (if line.once then '&' else '|') body)

/-- Whatever the name and the body, there is a line that says this. -/
theorem TextLine.exists_says (name body : List Char) : ∃ line : TextLine, line.Says name body := by
  by_cases honce : PlaysOnce body
  · exact ⟨⟨String.ofList name, trimSentences (splitChar '&' body), true⟩, rfl,
      iff_of_true rfl honce, rfl⟩
  · exact ⟨⟨String.ofList name, trimSentences (splitChar '|' body), false⟩, rfl,
      iff_of_false Bool.false_ne_true honce, rfl⟩

/-- A text line is read when there is a name and a body, and says what they make. -/
theorem parseTextLine_eq_ok_iff_says {source : String} {line : TextLine} :
    parseTextLine source = .ok line ↔
      ∃ name body, IsTextLine source.toList name body ∧ line.Says name body := by
  rw [parseTextLine_eq_ok_iff]
  constructor
  · rintro ⟨name, rest, hread, hname, hbody⟩
    rw [← readOnce_skipGap, ← readLoop_skipGap, once_or_loop_iff] at hbody
    obtain ⟨hfilled, honce, hsentences⟩ := hbody
    have hne : skipGap rest ≠ [] := by
      intro hnil
      rw [hnil] at hfilled
      obtain ⟨c, hc, -⟩ := hfilled [] List.mem_cons_self
      cases hc
    have hparts := isNamed_of_readName hread
    exact ⟨name, skipGap rest, ⟨⟨_, _, hparts⟩, hne, hfilled⟩, hname, honce, hsentences⟩
  · rintro ⟨name, body, ⟨⟨lead, gap, hparts⟩, -, hfilled⟩, hname, honce, hsentences⟩
    refine ⟨name, gap ++ body, hparts.readName_eq, hname, ?_⟩
    rw [← readOnce_skipGap, ← readLoop_skipGap, hparts.skipGap_eq, once_or_loop_iff]
    exact ⟨hfilled, honce, hsentences⟩

/-- **What text lines say.** A text line can be read exactly when it has a name and, behind it, a
body that is a mere gap nowhere between the occurrences of `|`. What it is read as is the line that
this name and this body make: its sentences are shown once exactly when the body has `&` and no `|`
and is a mere gap nowhere between the occurrences of `&`. -/
theorem text_line_read_iff (source : String) :
    ((∃ line, parseTextLine source = .ok line) ↔
      ∃ name body, IsTextLine source.toList name body) ∧
    ∀ line, parseTextLine source = .ok line ↔
      ∃ name body, IsTextLine source.toList name body ∧ line.Says name body := by
  refine ⟨?_, fun line => parseTextLine_eq_ok_iff_says⟩
  constructor
  · rintro ⟨line, hread⟩
    obtain ⟨name, body, hline, -⟩ := parseTextLine_eq_ok_iff_says.mp hread
    exact ⟨name, body, hline⟩
  · rintro ⟨name, body, hline⟩
    obtain ⟨line, hsays⟩ := TextLine.exists_says name body
    exact ⟨line, parseTextLine_eq_ok_iff_says.mpr ⟨name, body, hline, hsays⟩⟩

example : parseTextLine "INTRO First time. &Second time." =
    .ok ⟨"INTRO", ["First time.", "Second time."], true⟩ := by rfl

/-- An empty piece keeps the sentences from being shown once, and they are read as a loop of one. -/
example : parseTextLine "DUO Tom & & Jerry" = .ok ⟨"DUO", ["Tom & & Jerry"], false⟩ := by rfl

end StoryTape.Script
