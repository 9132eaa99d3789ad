import StoryTape.Script.Grammar
import StoryTape.TextBook.Reading
import StoryTape.Proofs.ComposedTags

/-!
# The tags of counters

The counter of a sequence is a tag `NAME_i`. A text name holds letters, numbers, underscores and
hyphens, so the only marker of a meter that can stand in such a tag is `--`, and a tag with that
marker does not read: no step ends in `_i`. A counter that reads at its first position therefore
reads at every position, and it reads as an identifier as a whole. Its position is found again
under its own name and under no other, since the last underscore parts the two.
-/

namespace StoryTape

open Text

namespace Script

/-- A text whose characters may stand in the name of a text. -/
def IsTextName (name : String) : Prop := ∀ c ∈ name.toList, isNameChar c = true

instance (name : String) : Decidable (IsTextName name) :=
  List.decidableBAll (isNameChar · = true) name.toList

/-- Names of texts put together are one. -/
theorem isTextName_append {a b : String} (ha : IsTextName a) (hb : IsTextName b) :
    IsTextName (a ++ b) := by
  intro c hc
  rw [String.toList_append, List.mem_append] at hc
  exact hc.elim (ha c) (hb c)

/-- A digit may stand in the name of a text. -/
theorem isNameChar_of_isDigit {c : Char} (h : c.isDigit = true) : isNameChar c = true := by
  simp [isNameChar, isWordChar, isNumber, h]

/-- A count may stand in the name of a text. -/
theorem isTextName_countText (n : Nat) : IsTextName (countText n) := by
  intro c hc
  rw [countText, String.toList_ofList] at hc
  exact isNameChar_of_isDigit (isDigit_of_mem_writeCount hc)

/-- What is read as a name is the name of a text. -/
theorem isTextName_of_readName {s name rest : List Char} (h : readName s = some (name, rest)) :
    IsTextName (String.ofList name) := by
  simp only [readName] at h
  split at h
  · cases h
  · cases h
    intro c hc
    rw [String.toList_ofList] at hc
    exact List.all_eq_true.mp List.all_takeWhile c hc

/-- The characters of names that are none of words. -/
theorem isNameChar_marks :
    ∀ c ∈ ['.', '+', '<', '>', '=', '?', '!', '*'], isNameChar c = false := by
  have hmarks : ['.', '+', '<', '>', '=', '?', '!', '*'].all (!isNameChar ·) = true := by
    decide +kernel
  exact fun c hc => (Bool.not_eq_true' _).mp (List.all_eq_true.mp hmarks c hc)

/-- No blank stands in a name. -/
theorem isBlank_of_isNameChar {c : Char} (h : isNameChar c = true) : isBlank c = false := by
  have hblanks : ∀ n ∈ [0x09, 0x0A, 0x0B, 0x0C, 0x0D, 0x20, 0x85, 0xA0, 0x1680, 0x2000, 0x2001,
      0x2002, 0x2003, 0x2004, 0x2005, 0x2006, 0x2007, 0x2008, 0x2009, 0x200A, 0x2028, 0x2029,
      0x202F, 0x205F, 0x3000], isNameChar (Char.ofNat n) = false := by decide +kernel
  by_contra hblank
  rw [Bool.not_eq_false, isBlank] at hblank
  have hmem : c.toNat ∈ [0x09, 0x0A, 0x0B, 0x0C, 0x0D, 0x20, 0x85, 0xA0, 0x1680, 0x2000, 0x2001,
      0x2002, 0x2003, 0x2004, 0x2005, 0x2006, 0x2007, 0x2008, 0x2009, 0x200A, 0x2028, 0x2029,
      0x202F, 0x205F, 0x3000] := by
    simp only [Bool.or_eq_true, Bool.and_eq_true, decide_eq_true_eq, beq_iff_eq] at hblank
    simp only [List.mem_cons, List.not_mem_nil, or_false]
    omega
  have hnot := hblanks _ hmem
  rw [Char.ofNat_toNat] at hnot
  rw [h] at hnot
  cases hnot

section Marks

variable {text : String}

/-- Of the characters with a meaning in tags only the hyphen stands in names. -/
theorem IsTextName.mark_not_mem (h : IsTextName text) {c : Char}
    (hc : c ∈ ['.', '+', '<', '>', '=', '?', '!', '*']) : c ∉ text.toList := by
  intro hmem
  have hname := h c hmem
  rw [isNameChar_marks c hc] at hname
  cases hname

/-- So of the markers of meters only the double hyphen does. -/
theorem IsTextName.marker_not_infix (h : IsTextName text) {m : Char × Char}
    (hm : m ∈ meterMarkers) (hne : m ≠ ('-', '-')) : ¬ [m.1, m.2] <:+: text.toList := by
  have hfirst : ∀ m ∈ meterMarkers, m ≠ ('-', '-') →
      m.1 ∈ ['.', '+', '<', '>', '=', '?', '!', '*'] := by decide
  exact fun hin => h.mark_not_mem (hfirst m hm hne) (hin.subset List.mem_cons_self)

/-- A tag of such a text has no sign and no location, so its body is the whole text. -/
theorem IsTextName.body_eq (h : IsTextName text) :
    splitLocation text.toList = (text.toList, none) ∧
      splitSign text.toList = (.plain, text.toList) := by
  constructor
  · rw [splitLocation, splitLast_eq_none (h.mark_not_mem (by simp))]
  · unfold splitSign
    split
    · next rest hrest =>
      exact absurd (hrest ▸ List.mem_cons_self) (h.mark_not_mem (c := '?') (by simp))
    · next rest hrest =>
      exact absurd (hrest ▸ List.mem_cons_self) (h.mark_not_mem (c := '!') (by simp))
    · rfl

/-- The name of a text has no blanks at its ends. -/
theorem IsTextName.trim_eq (h : IsTextName text) : trim text.toList = text.toList :=
  trim_eq_self fun c hc => isBlank_of_isNameChar (h c hc)

/-- Without a double hyphen such a text is read as an identifier as a whole. -/
theorem IsTextName.parse_eq_ok (h : IsTextName text) (hne : text.toList ≠ [])
    (hhyphens : ¬ ['-', '-'] <:+: text.toList) :
    ∃ t, Tag.parse text = .ok t ∧ t.raw = text ∧ t.value = text := by
  have hunmarked : Unmarked text.toList := by
    intro m hm
    by_cases hm' : m = ('-', '-')
    · rw [hm']
      exact hhyphens
    · exact h.marker_not_infix hm hm'
  have hopen : Tag.Follows text.toList .plain := by
    intro _ c hc
    have hmem := List.mem_of_head? hc
    exact ⟨ne_of_mem_of_not_mem hmem (h.mark_not_mem (by simp)),
      ne_of_mem_of_not_mem hmem (h.mark_not_mem (by simp)), isBlank_of_isNameChar (h c hmem)⟩
  have hclose : Tag.Closes text.toList none :=
    ⟨h.body_eq.1, fun c hc => isBlank_of_isNameChar (h c (List.mem_of_getLast? hc))⟩
  obtain ⟨t, ht, hraw, -, hvalue, -⟩ := Tag.parse_compose hne hunmarked hopen hclose
  have hcompose : Tag.compose .plain text.toList none = text := String.ofList_toList
  rw [hcompose] at ht hraw
  exact ⟨t, ht, hraw, String.toList_inj.mp hvalue⟩

end Marks

end Script

/-! ### Numerals -/

/-- A text with a character that is no digit is not read as digits. -/
theorem readDigits_of_mem {s : List Char} {c : Char} (h : c ∈ s) (hc : c.isDigit = false) :
    readDigits s = none := by
  rw [readDigits, if_neg]
  rintro ⟨-, hall⟩
  have hdigit := List.all_eq_true.mp hall c h
  rw [hc] at hdigit
  cases hdigit

/-- Dropping a plus sign in front drops nothing else. -/
theorem mem_dropPlus {s : List Char} {c : Char} (h : c ∈ s) (hc : c ≠ '+') : c ∈ dropPlus s := by
  unfold dropPlus
  split
  · exact (List.mem_cons.mp h).resolve_left hc
  · exact h

/-- A text with an underscore is no count. -/
theorem readCount_of_underscore {s : List Char} (h : '_' ∈ s) : readCount s = none := by
  rw [readCount, readDigits_of_mem (mem_dropPlus h (by decide)) (by decide)]
  rfl

/-- A text with an underscore is no level. -/
theorem readLevel_of_underscore {s : List Char} (h : '_' ∈ s) : readLevel s = none := by
  unfold readLevel
  split
  · next digits =>
    have hmem : '_' ∈ digits := (List.mem_cons.mp h).resolve_left (by decide)
    rw [readDigits_of_mem hmem (by decide)]
    rfl
  · rw [readDigits_of_mem (mem_dropPlus h (by decide)) (by decide)]
    rfl

/-- A count is written without an underscore. -/
theorem underscore_not_mem_writeCount (n : Nat) : '_' ∉ writeCount n :=
  fun h => absurd (isDigit_of_mem_writeCount h) (by decide)

/-- The numeral of a counter holds no hyphen. -/
theorem hyphen_not_mem_numeral (n : Nat) : '-' ∉ '_' :: writeCount n := by
  intro h
  have hdigit := isDigit_of_mem_writeCount ((List.mem_cons.mp h).resolve_left (by decide))
  exact absurd hdigit (by decide)

/-! ### Counters as tags -/

/-- The first counter of a name ends with a zero. -/
theorem counterTag_zero (name : String) : counterTag name 0 = name ++ "_0" := by
  rw [counterTag, String.append_assoc]
  rfl

/-- A counter is its name, an underscore and the position. -/
theorem toList_counterTag (name : String) (index : Nat) :
    (counterTag name index).toList = name.toList ++ '_' :: writeCount index := by
  simp [counterTag, countText]

/-- In a counter an underscore follows every double hyphen. -/
theorem underscore_mem_of_splitLast {name : String} {index : Nat} {before after : List Char}
    (h : splitLast ['-', '-'] (counterTag name index).toList = some (before, after)) :
    '_' ∈ after := by
  have hends : '_' :: writeCount index <:+ (counterTag name index).toList :=
    ⟨name.toList, (toList_counterTag name index).symm⟩
  rcases List.suffix_or_suffix_of_suffix hends (suffix_of_splitLast h) with hin | hin
  · exact hin.subset List.mem_cons_self
  · have hwhole := eq_append_of_splitLast h
    rw [toList_counterTag] at hwhole
    obtain ⟨inside, hinside⟩ := hin
    -- what the numeral has in front of `after` would end in a hyphen
    rcases List.eq_nil_or_concat inside with rfl | ⟨start, last, rfl⟩
    · rw [List.nil_append] at hinside
      rw [hinside]
      exact List.mem_cons_self
    · rw [List.concat_eq_append] at hinside
      rw [← hinside, ← List.append_assoc] at hwhole
      have hcut := congrArg List.getLast? (List.append_cancel_right hwhole)
      rw [← List.append_assoc, List.getLast?_concat] at hcut
      have hlast : last = '-' := by
        simpa [List.getLast?_append] using hcut
      refine absurd ?_ (hyphen_not_mem_numeral index)
      rw [← hinside, hlast]
      simp

/-- The name of a sequence whose counters read, each as an identifier as a whole. -/
def Countable (name : String) : Prop :=
  ∀ index, ∃ t, Tag.parse (counterTag name index) = .ok t ∧ t.raw = counterTag name index ∧
    t.value = counterTag name index

/-- Whatever reads as a counter has it for its identifier. -/
theorem Countable.value_eq {name : String} (h : Countable name) {t : Tag} {index : Nat}
    (ht : t.raw = counterTag name index) : t.value = counterTag name index := by
  obtain ⟨t', hparse, hraw, hvalue⟩ := h index
  rw [Tag.ext_raw (ht.trans hraw.symm), hvalue]

namespace Script

/-- The counter of a name of a text is one. -/
theorem isTextName_counterTag {name : String} (h : IsTextName name) (index : Nat) :
    IsTextName (counterTag name index) :=
  isTextName_append (isTextName_append h (by decide +kernel)) (isTextName_countText index)

/-- A counter that reads holds no double hyphen, for what follows the last one is no step. -/
theorem not_hyphens_of_parse {name : String} (h : IsTextName name) {index : Nat} {t : Tag}
    (hparse : Tag.parse (counterTag name index) = .ok t) :
    ¬ ['-', '-'] <:+: (counterTag name index).toList := by
  intro hin
  have htext := isTextName_counterTag h index
  have hraw : t.raw = counterTag name index := by
    rw [Tag.raw_of_parse hparse, htext.trim_eq, String.ofList_toList]
  obtain ⟨hlocation, hsign⟩ := htext.body_eq
  have hmeter := t.splitMeter_body
  have hdots := splitLast_eq_none_iff.mpr
    (htext.marker_not_infix (m := ('.', '.')) (by decide) (by decide))
  have hplus := splitLast_eq_none_iff.mpr
    (htext.marker_not_infix (m := ('+', '+')) (by decide) (by decide))
  rw [Tag.body, hraw, hlocation] at hmeter
  dsimp only at hmeter
  rw [hsign] at hmeter
  cases hcut : splitLast ['-', '-'] (counterTag name index).toList with
  | none => exact splitLast_eq_none_iff.mp hcut hin
  | some cut =>
    obtain ⟨before, after⟩ := cut
    have hunderscore := underscore_mem_of_splitLast hcut
    have hne : after.isEmpty = false := by
      rw [List.isEmpty_eq_false_iff]
      exact List.ne_nil_of_mem hunderscore
    simp [splitMeter, hdots, hplus, hcut, readStep, hne, readLevel_of_underscore hunderscore,
      Bind.bind, Except.bind] at hmeter

/-- A double hyphen in a counter stands in its name. -/
theorem hyphens_infix_counterTag_iff {name : String} {index : Nat} :
    ['-', '-'] <:+: (counterTag name index).toList ↔ ['-', '-'] <:+: name.toList := by
  have hnumeral := hyphen_not_mem_numeral index
  rw [toList_counterTag]
  constructor
  · intro hin
    rcases pair_infix_append hin with hname | hnumber | ⟨-, hopens⟩
    · exact hname
    · exact absurd (hnumber.subset List.mem_cons_self) hnumeral
    · exact absurd (List.mem_of_head? hopens) hnumeral
  · exact fun hname => hname.trans (List.infix_append' [] _ _)

/-- The counters of a name without double hyphens read. -/
theorem IsTextName.countable {name : String} (h : IsTextName name)
    (hhyphens : ¬ ['-', '-'] <:+: name.toList) : Countable name := fun index =>
  (isTextName_counterTag h index).parse_eq_ok (by simp [toList_counterTag])
    (mt hyphens_infix_counterTag_iff.mp hhyphens)

/-- A counter reads exactly when its name holds no double hyphen. -/
theorem IsTextName.parse_counterTag_iff {name : String} (h : IsTextName name) {index : Nat} :
    (∃ t, Tag.parse (counterTag name index) = .ok t) ↔ ¬ ['-', '-'] <:+: name.toList := by
  constructor
  · rintro ⟨t, hparse⟩ hin
    exact not_hyphens_of_parse h hparse (hyphens_infix_counterTag_iff.mpr hin)
  · intro hhyphens
    obtain ⟨t, hparse, -⟩ := h.countable hhyphens index
    exact ⟨t, hparse⟩

/-- A counter that reads at its first position reads at every one. -/
theorem countable_of_parse {name : String} (h : IsTextName name) {t : Tag}
    (hparse : Tag.parse (counterTag name 0) = .ok t) : Countable name :=
  h.countable (h.parse_counterTag_iff.mp ⟨t, hparse⟩)

end Script

/-- The position of a counter is not found under another name. -/
theorem positionIn?_counterTag_of_ne {name name' : String} (hne : name ≠ name') (index : Nat) :
    positionIn? name (counterTag name' index) = none := by
  simp only [positionIn?]
  split
  · next hopens =>
    have hwhole := eq_append_of_isPrefixOf hopens
    generalize hrest : (counterTag name' index).toList.drop (name.toList ++ ['_']).length = rest
      at hwhole ⊢
    rw [toList_counterTag, List.append_assoc, List.singleton_append] at hwhole
    by_cases hunderscore : '_' ∈ rest
    · exact readCount_of_underscore hunderscore
    · have hcut := splitLast_append name.toList hunderscore
      rw [← hwhole, splitLast_append _ (underscore_not_mem_writeCount index)] at hcut
      obtain ⟨hname, -⟩ := Prod.mk.inj (Option.some.inj hcut)
      exact absurd (String.toList_inj.mp hname.symm) hne
  · rfl

/-- Under its own name the position of a counter is found. -/
theorem positionIn?_counterTag_self {name : String} {index : Nat} (h : index < wordSize) :
    positionIn? name (counterTag name index) = some index := by
  have hwhole : (counterTag name index).toList = (name.toList ++ ['_']) ++ writeCount index := by
    rw [toList_counterTag, List.append_assoc, List.singleton_append]
  have hopens : (name.toList ++ ['_']).isPrefixOf (counterTag name index).toList = true :=
    List.isPrefixOf_iff_prefix.mpr ⟨_, hwhole.symm⟩
  simp only [positionIn?]
  rw [if_pos hopens, hwhole, List.drop_left, readCount_writeCount h]

/-- The position of a counter is found under its own name only. -/
theorem positionIn?_counterTag {name name' : String} {index : Nat} (h : index < wordSize) :
    positionIn? name (counterTag name' index) = if name = name' then some index else none := by
  split
  · next hsame => rw [hsame, positionIn?_counterTag_self h]
  · next hne => exact positionIn?_counterTag_of_ne hne index

end StoryTape
