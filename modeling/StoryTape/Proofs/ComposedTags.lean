import StoryTape.Proofs.TagText

/-!
# Tags put together anew

Expanding a template puts a sign, an identifier and a location together to a text, and reads the
text as a tag. The parts come out as they went in unless one of them is taken for another: an
identifier without sign must not open with a sign or a blank, one without location must not hold a
location of its own, and no marker of a meter may have come into being.
-/

namespace StoryTape

open Text

namespace Text

/-- The angle brackets of a text. -/
def brackets (s : List Char) : List Char := s.filter fun c => c = '<' || c = '>'

/-- The brackets of texts put together are those of each. -/
theorem brackets_append (s t : List Char) : brackets (s ++ t) = brackets s ++ brackets t :=
  List.filter_append s t

/-- A text without angle brackets has none of them. -/
theorem brackets_eq_nil {s : List Char} (h : ∀ c ∈ s, c ≠ '<' ∧ c ≠ '>') : brackets s = [] :=
  List.filter_eq_nil_iff.mpr fun c hc => by simp [h c hc]

/-- A text has the brackets that occur in it. -/
theorem mem_brackets {s : List Char} {c : Char} (hc : c = '<' ∨ c = '>') :
    c ∈ brackets s ↔ c ∈ s := by
  rw [brackets, List.mem_filter]
  exact and_iff_left (by simpa using hc)

end Text

/-- A text has no location exactly when its last angle bracket does not close an open one. -/
theorem splitLocation_eq_self_iff {s : List Char} :
    splitLocation s = (s, none) ↔ ('<' ∈ brackets s → (brackets s).getLast? ≠ some '>') := by
  rw [mem_brackets (.inl rfl)]
  cases hopen : splitLast ['<'] s with
  | none =>
    have hnot : '<' ∉ s := splitLast_eq_none_iff_notMem.mp hopen
    simp [splitLocation, hopen, hnot]
  | some cut =>
    obtain ⟨before, rest⟩ := cut
    have hs : s = before ++ '<' :: rest := by simpa using eq_append_of_splitLast hopen
    have hrest : '<' ∉ rest := notMem_of_splitLast hopen
    have hbrackets : brackets s = brackets before ++ '<' :: brackets rest := by
      rw [hs, brackets_append]
      rfl
    have hmem : '<' ∈ s := by simp [hs]
    simp only [hmem, forall_const, hbrackets]
    cases hclose : splitLast ['>'] rest with
    | none =>
      have hnot : '>' ∉ rest := splitLast_eq_none_iff_notMem.mp hclose
      have hnil : brackets rest = [] := brackets_eq_nil fun c hc =>
        ⟨ne_of_mem_of_not_mem hc hrest, ne_of_mem_of_not_mem hc hnot⟩
      simp [splitLocation, hopen, hclose, hnil]
    | some cut =>
      obtain ⟨inside, after⟩ := cut
      have hlength : before ≠ s := fun h => by
        have hlength := congrArg List.length (h.trans hs)
        simp at hlength
      -- What is behind the last opening bracket holds closing ones alone.
      have hin : '>' ∈ brackets rest :=
        (mem_brackets (.inr rfl)).mpr (by simp [eq_append_of_splitLast hclose])
      have hlast : (brackets rest).getLast? = some '>' := by
        cases hlast : (brackets rest).getLast? with
        | none => simp [List.getLast?_eq_none_iff.mp hlast] at hin
        | some c =>
          obtain ⟨hmem, hbracket⟩ := List.mem_filter.mp (List.mem_of_getLast? hlast)
          have hne : c ≠ '<' := ne_of_mem_of_not_mem hmem hrest
          simpa [hne] using hbracket
      simp [splitLocation, hopen, hclose, hlength, List.getLast?_cons, hlast]

/-- A text has no location, or it is cut at an opening bracket. -/
theorem splitLocation_cases (s : List Char) :
    splitLocation s = (s, none) ∨ ∃ rest, s = (splitLocation s).1 ++ '<' :: rest := by
  unfold splitLocation
  split
  · exact .inl rfl
  · next before rest hopen =>
    split
    · exact .inl rfl
    · exact .inr ⟨rest, by simpa using eq_append_of_splitLast hopen⟩

/-- A sign is read off again from a text that does not open with one. -/
theorem splitSign_sign_append {mode : TagMode} {s : List Char}
    (h : mode = .plain → s.head? ≠ some '?' ∧ s.head? ≠ some '!') :
    splitSign (mode.sign ++ s) = (mode, s) := by
  cases mode with
  | required => rfl
  | forbidden => rfl
  | plain =>
    obtain ⟨hrequired, hforbidden⟩ := h rfl
    rw [TagMode.sign, List.nil_append, splitSign]
    · rintro body rfl
      exact hrequired rfl
    · rintro body rfl
      exact hforbidden rfl

/-- A text without sign opens with none. -/
theorem head?_of_splitSign {s : List Char} (h : (splitSign s).1 = .plain) :
    s.head? ≠ some '?' ∧ s.head? ≠ some '!' := by
  unfold splitSign at h
  split at h
  · cases h
  · cases h
  · next hrequired hforbidden =>
    cases s with
    | nil => exact ⟨nofun, nofun⟩
    | cons c r =>
      refine ⟨?_, ?_⟩
      · intro hc
        exact hrequired r (by rw [Option.some.inj hc])
      · intro hc
        exact hforbidden r (by rw [Option.some.inj hc])

namespace Tag

/-- Whether an identifier can follow a sign: without sign, its first character is taken neither for
one nor for a blank in front of the text. -/
def Follows (value : List Char) (mode : TagMode) : Prop :=
  mode = .plain → ∀ c, value.head? = some c → c ≠ '?' ∧ c ≠ '!' ∧ isBlank c = false

/-- What can follow a sign is told by the first character. -/
theorem Follows.of_head?_eq {s t : List Char} {mode : TagMode} (h : Follows s mode)
    (heq : t.head? = s.head?) : Follows t mode :=
  fun hmode c hc => h hmode c (heq ▸ hc)

/-- A sign is read off in front of what can follow it. -/
theorem Follows.splitSign_eq {value : List Char} {mode : TagMode} (h : Follows value mode) :
    splitSign (mode.sign ++ value) = (mode, value) :=
  splitSign_sign_append fun hmode =>
    ⟨fun hhead => (h hmode _ hhead).1 rfl, fun hhead => (h hmode _ hhead).2.1 rfl⟩

/-- A tag put together does not start with a blank. -/
theorem Follows.isBlank_head {value : List Char} {mode : TagMode} (h : Follows value mode)
    (hne : value ≠ []) (rest : List Char) {c : Char}
    (hhead : (mode.sign ++ value ++ rest).head? = some c) : isBlank c = false := by
  obtain ⟨d, r, rfl⟩ := List.exists_cons_of_ne_nil hne
  cases mode with
  | plain => exact (h rfl c hhead).2.2
  | required =>
    cases hhead
    rfl
  | forbidden =>
    cases hhead
    rfl

/-- No tag has an empty identifier. -/
theorem value_ne_nil (t : Tag) : t.value.toList ≠ [] := by
  obtain ⟨body, name, -, -, -, hne, hvalue⟩ := TagParts.read_eq_ok t.read_raw
  rwa [value, hvalue, String.toList_ofList]

/-- Sign and body make up the text in front of the location. -/
theorem mode_eq_splitSign (t : Tag) : t.mode = (splitSign (splitLocation t.raw.toList).1).1 := by
  obtain ⟨body, name, hlocation, hmode, -⟩ := TagParts.read_eq_ok t.read_raw
  rw [hlocation]
  exact hmode

/-- A tag without its location is its sign and its body. -/
theorem sign_append_body (t : Tag) : t.mode.sign ++ t.body = (splitLocation t.raw.toList).1 := by
  rw [mode_eq_splitSign, body, sign_append_splitSign]

/-- The identifier of a tag can follow its sign. -/
theorem follows_value (t : Tag) : Follows t.value.toList t.mode := by
  intro hmode c hc
  obtain ⟨x, hx⟩ := List.head?_eq_some_iff.mp hc
  have hraw : t.raw.toList.head? = some c := by
    obtain ⟨rest, hrest⟩ := t.sign_append_value_opens
    rw [← hrest, hmode, hx]
    rfl
  have hbody : t.body.head? = some c := by
    obtain ⟨rest, hrest⟩ := t.value_opens_body
    rw [← hrest, hx]
    rfl
  have hsign := t.mode_eq_splitSign.symm.trans hmode
  rw [← t.sign_append_body, hmode, TagMode.sign, List.nil_append] at hsign
  obtain ⟨hrequired, hforbidden⟩ := head?_of_splitSign hsign
  refine ⟨?_, ?_, isBlank_head?_of_trim t.trim_raw hraw⟩
  · rintro rfl
    exact hrequired hbody
  · rintro rfl
    exact hforbidden hbody

/-- The location put behind an identifier, or that the identifier is free of one by itself and does
not end with a blank. -/
def Closes (value : List Char) : Option String → Prop
  | none => splitLocation value = (value, none) ∧
      ∀ c, value.getLast? = some c → isBlank c = false
  | some name => '<' ∉ name.toList

/-- A composed text has no blanks at its ends. -/
theorem trim_compose {mode : TagMode} {value : List Char} {name : Option String} (hne : value ≠ [])
    (hopen : Follows value mode) (hclose : Closes value name) :
    trim (compose mode value name).toList = (compose mode value name).toList := by
  cases name with
  | none =>
    rw [compose, String.toList_ofList]
    refine trim_eq_self_of_ends (fun c hc => hopen.isBlank_head hne [] (by simpa using hc)) ?_
    intro c hc
    rw [List.getLast?_append, Option.or_of_isSome (by simpa using hne)] at hc
    exact hclose.2 c hc
  | some name =>
    rw [compose, String.toList_ofList, List.append_assoc]
    refine trim_eq_self_of_ends (fun c hc => hopen.isBlank_head hne _ hc) ?_
    intro c hc
    rw [← List.append_assoc, List.getLast?_concat] at hc
    cases hc
    rfl

/-- A tag put together is cut where its location was put. -/
theorem splitLocation_compose_eq {value : List Char} {name : Option String}
    (hclose : Closes value name) (mode : TagMode) :
    splitLocation (compose mode value name).toList =
      (mode.sign ++ value, name.bind (place ·.toList)) := by
  cases name with
  | none =>
    have hsign : brackets mode.sign = [] := by cases mode <;> rfl
    have hvalue := splitLocation_eq_self_iff.mp hclose.1
    rw [compose, String.toList_ofList]
    refine splitLocation_eq_self_iff.mpr ?_
    rwa [brackets_append, hsign, List.nil_append]
  | some name =>
    rw [compose, String.toList_ofList, List.append_assoc]
    exact splitLocation_append hclose _

/-- **A composed tag has the parts it was put together from.** -/
theorem parse_compose {mode : TagMode} {value : List Char} {name : Option String} (hne : value ≠ [])
    (hunmarked : Unmarked value) (hopen : Follows value mode) (hclose : Closes value name) :
    ∃ t, parse (compose mode value name) = .ok t ∧ t.raw = compose mode value name ∧
      t.mode = mode ∧ t.value.toList = value ∧ t.location = name.bind (place ·.toList) ∧
      t.meter = .ofValue (if (splitNumeral value).1 = [] then minLevel
        else (readLevel (splitNumeral value).2).getD minLevel) := by
  have hmeter : splitMeter (compose mode value name) value = _ := splitMeter_of_unmarked hunmarked
  generalize Meter.ofValue _ = meter at hmeter ⊢
  have hlocation := splitLocation_compose_eq hclose mode
  generalize name.bind (place ·.toList) = location at hlocation ⊢
  have hraw : (compose mode value name).toList ≠ [] := by
    cases name <;> simp [compose, hne]
  have hread : TagParts.read (compose mode value name) =
      .ok ⟨mode, String.ofList value, location, meter⟩ := by
    unfold TagParts.read
    simp [hraw, hlocation, hopen.splitSign_eq, hmeter, hne, Bind.bind, Except.bind, Pure.pure,
      Except.pure]
  have hparse := parse_raw ⟨_, _, trim_compose hne hopen hclose, hread⟩
  exact ⟨_, hparse, rfl, rfl, String.toList_ofList, rfl, rfl⟩

end Tag

end StoryTape
